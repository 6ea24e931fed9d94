import KeyCodec.Proofs.EncoderFaults
import KeyCodec.Proofs.Writing

/-!
# What a failed encoding discloses

A secret key whose scalar is no number cannot be written, and the fault says why.  It tells the type
of the scalar, and of a negative integer of at most 4300 digits it tells the integer.  Nothing else
of the scalar gets out: two keys with scalars of one type fail alike unless they differ in such an
integer.  A dump wraps the text of the fault into its own message, so it discloses just as much.
-/

namespace KeyCodec

namespace Value

def IsRefused (v : Value) : Prop :=
  ∃ r, HexText.encode v = .error r

def SameType (v w : Value) : Prop :=
  v.typeName = w.typeName ∧ ((∃ i, v = .int i) ↔ ∃ j, w = .int j)

/-- The integer that is repeated when the value is refused. -/
def disclosed? : Value → Option Int
  | .int i => if i.natAbs < Integer.textBound then some i else none
  | _ => none

theorem IsRefused.not_isNumber {v : Value} (h : v.IsRefused) : ¬ v.IsNumber := by
  obtain ⟨r, hr⟩ := h
  rintro ⟨n, rfl⟩
  rw [HexText.encode_natCast] at hr
  cases hr

/-- Two values of one type are two integers, or two values that are none and bear one type name. -/
theorem SameType.cases {v w : Value} (h : v.SameType w) :
    (∃ i j, v = .int i ∧ w = .int j) ∨
      ((∀ i, v ≠ .int i) ∧ (∀ j, w ≠ .int j) ∧ v.typeName = w.typeName) := by
  obtain ⟨hname, hint⟩ := h
  by_cases hv : ∃ i, v = .int i
  · obtain ⟨i, hi⟩ := hv
    obtain ⟨j, hj⟩ := hint.mp ⟨i, hi⟩
    exact Or.inl ⟨i, j, hi, hj⟩
  · have hw : ¬ ∃ j, w = .int j := fun hw => hv (hint.mpr hw)
    exact Or.inr ⟨not_exists.mp hv, not_exists.mp hw, hname⟩

theorem disclosed?_of_not_int {v : Value} (h : ∀ i, v ≠ .int i) : v.disclosed? = none := by
  cases v with
  | int i => exact absurd rfl (h i)
  | _ => rfl

end Value

/-! ### Integers in texts -/

namespace Integer

theorem eq_of_repr_eq {m n : Nat} (h : m.repr = n.repr) : m = n := by
  rw [Nat.repr_eq_ofList_toDigits, Nat.repr_eq_ofList_toDigits, String.ofList_inj] at h
  rw [← Nat.ofDigitChars_ten_toDigits (n := m), h, Nat.ofDigitChars_ten_toDigits]

theorem repr_ne_minus (m n : Nat) : m.repr ≠ "-" ++ n.repr := by
  intro h
  have hminus : '-' ∈ Nat.toDigits 10 m := by
    rw [← String.toList_ofList (l := Nat.toDigits 10 m), ← Nat.repr_eq_ofList_toDigits, h,
      String.toList_append]
    exact List.mem_cons_self
  exact absurd (Nat.isDigit_of_mem_toDigits (by decide) (by decide) hminus) (by decide)

/-- No two integers have the same decimal text. -/
theorem eq_of_toString_eq {i j : Int} (h : toString i = toString j) : i = j := by
  rw [Int.toString_eq_repr, Int.toString_eq_repr, Int.repr_eq_if, Int.repr_eq_if] at h
  by_cases hi : 0 ≤ i
  · by_cases hj : 0 ≤ j
    · rw [if_pos hi, if_pos hj] at h
      have hsame := eq_of_repr_eq h
      omega
    · rw [if_pos hi, if_neg hj] at h
      exact absurd h (repr_ne_minus _ _)
  · by_cases hj : 0 ≤ j
    · rw [if_neg hi, if_pos hj] at h
      exact absurd h.symm (repr_ne_minus _ _)
    · rw [if_neg hi, if_neg hj, String.append_right_inj] at h
      have hsame := eq_of_repr_eq h
      omega

end Integer

/-! ### What a fault tells -/

namespace HexText

theorem objection_fault_of_not_int {v : Value} (h : ∀ i, v ≠ .int i) :
    (objection v).fault = .codec .validation
      { message := .text ("Expected integer, got " ++ v.typeName) } none := by
  cases v with
  | int i => exact absurd rfl (h i)
  | _ => rfl

theorem negative_fault_of_disclosed {i j : Int}
    (h : (Value.int i).disclosed? = (Value.int j).disclosed?) :
    (Refusal.negative i).fault = (Refusal.negative j).fault := by
  simp only [Value.disclosed?] at h
  by_cases hi : i.natAbs < Integer.textBound
  · by_cases hj : j.natAbs < Integer.textBound
    · rw [if_pos hi, if_pos hj, Option.some.injEq] at h
      rw [h]
    · rw [if_pos hi, if_neg hj] at h
      cases h
  · by_cases hj : j.natAbs < Integer.textBound
    · rw [if_neg hi, if_pos hj] at h
      cases h
    · rw [negative_fault_of_long (Nat.not_lt.mp hi), negative_fault_of_long (Nat.not_lt.mp hj)]

theorem described_negative_of_short {i : Int} (h : i.natAbs < Integer.textBound) :
    Dump.described (Refusal.negative i).fault =
      "ValidationError: " ++ ("Cannot hex-encode negative integer: " ++ toString i) := by
  rw [negative_fault_of_short h]
  rfl

theorem described_negative_of_long {i : Int} (h : Integer.textBound ≤ i.natAbs) :
    ∃ limit, Dump.described (Refusal.negative i).fault = "ValueError: " ++ limit := by
  rw [negative_fault_of_long h]
  exact ⟨_, rfl⟩

theorem described_negative_ne {i j : Int} (hi : i.natAbs < Integer.textBound)
    (hj : Integer.textBound ≤ j.natAbs) :
    Dump.described (Refusal.negative i).fault ≠ Dump.described (Refusal.negative j).fault := by
  obtain ⟨limit, hlimit⟩ := described_negative_of_long hj
  rw [described_negative_of_short hi, hlimit]
  intro h
  have hletter := congrArg (fun s => s.toList[3]?) h
  simp at hletter

theorem disclosed_of_described_negative {i j : Int}
    (h : Dump.described (Refusal.negative i).fault = Dump.described (Refusal.negative j).fault) :
    (Value.int i).disclosed? = (Value.int j).disclosed? := by
  by_cases hi : i.natAbs < Integer.textBound
  · by_cases hj : j.natAbs < Integer.textBound
    · rw [described_negative_of_short hi, described_negative_of_short hj,
        String.append_right_inj, String.append_right_inj] at h
      rw [Integer.eq_of_toString_eq h]
    · exact absurd h (described_negative_ne hi (Nat.not_lt.mp hj))
  · by_cases hj : j.natAbs < Integer.textBound
    · exact absurd h.symm (described_negative_ne hj (Nat.not_lt.mp hi))
    · rw [Value.disclosed?, Value.disclosed?, if_neg hi, if_neg hj]

theorem objection_fault_of_disclosed {v w : Value} (htype : v.SameType w)
    (h : v.disclosed? = w.disclosed?) : (objection v).fault = (objection w).fault := by
  rcases htype.cases with ⟨i, j, rfl, rfl⟩ | ⟨hv, hw, hname⟩
  · exact negative_fault_of_disclosed h
  · rw [objection_fault_of_not_int hv, objection_fault_of_not_int hw, hname]

theorem disclosed_of_described {v w : Value} (htype : v.SameType w)
    (h : Dump.described (objection v).fault = Dump.described (objection w).fault) :
    v.disclosed? = w.disclosed? := by
  rcases htype.cases with ⟨i, j, rfl, rfl⟩ | ⟨hv, hw, -⟩
  · exact disclosed_of_described_negative h
  · rw [Value.disclosed?_of_not_int hv, Value.disclosed?_of_not_int hw]

end HexText

/-! ### Dumps that fail -/

/-- The dump fails with the fault, whatever has been read before it. -/
def Dumping.Fails {α : Type} (d : Dumping α) (f : Fault) : Prop :=
  ∀ drains, (d.run.run drains).1 = .error f

namespace Dumping

variable {α β : Type} {d : Dumping α} {f : Fault}

theorem Fails.bind (h : d.Fails f) (g : α → Dumping β) : (d >>= g).Fails f := by
  intro drains
  have hrun := h drains
  rw [ExceptT.run_bind, StateT.run_bind]
  cases hstep : d.run.run drains with
  | mk outcome rest =>
      rw [hstep] at hrun
      cases hrun
      rfl

theorem Fails.outcome (h : d.Fails f) : d.outcome = .error f := by
  exact h []

end Dumping

namespace Dump

variable {medium : Medium} {room : Nat}

theorem writeKey_fails {slot : KeySlot} {key : Value} {f : Fault}
    (h : ∀ drains, slot.encode (key.refresh drains) = .error f) :
    (writeKey medium slot key).Fails (report medium (codecFault f)) := by
  intro drains
  have hrun : (writeKey medium slot key).run.run drains =
      (MonadExcept.ofExcept ((slot.encode (key.refresh drains)).mapError
        fun f => report medium (codecFault f)) : Dumping Value).run.run
          (slot.reads (key.refresh drains) ++ drains) := rfl
  rw [hrun, h drains]
  rfl

theorem write_key_fails {slot : KeySlot} {key : Value} {f : Fault}
    (h : (writeKey medium slot key).Fails f) :
    (write medium room (.slot (.key slot)) key).Fails f := by
  rw [write]
  exact h

theorem writeFields_fails {schema : Model} {name : String} {slot : KeySlot}
    {default? : Option Value} {key : Value} {fields : List (String × Value)} {f : Fault}
    (hfield : schema.field? name = some ⟨name, .key slot, default?⟩)
    (h : (writeKey medium slot key).Fails f) :
    (writeFields medium room schema ((name, key) :: fields)).Fails f := by
  rw [writeFields]
  simp only [hfield]
  exact (write_key_fails h).bind _

/-- A dump fault has one argument, which ends with the text of the fault that it reports. -/
theorem described_of_report {f g : Fault}
    (h : report medium (codecFault f) = report medium (codecFault g)) :
    described f = described g := by
  have hcodec : ∀ {f g : Fault}, codecFault f = codecFault g → described f = described g := by
    intro f g h
    injection h with _ harguments
    injection harguments with hmessage _
    injection hmessage with htext
    exact (String.append_right_inj _).mp htext
  cases medium with
  | values => exact hcodec h
  | text =>
      injection h with _ harguments
      injection harguments with hmessage _
      injection hmessage with htext
      have hdescribed := (String.append_right_inj _).mp htext
      exact (String.append_right_inj _).mp ((String.append_right_inj _).mp hdescribed)

end Dump

/-! ### Keys of the unchecked core in models -/

theorem Value.isNumber_of_refresh {v : Value} {drains : Drains}
    (h : (v.refresh drains).IsNumber) : v.IsNumber := by
  cases v with
  | int i => exact h
  | _ =>
      obtain ⟨n, hn⟩ := h
      cases hn

theorem HexText.objection_fault_refresh (v : Value) (drains : Drains) :
    (objection (v.refresh drains)).fault = (objection v).fault := by
  cases v <;> rfl

theorem KeySlot.encode_refused {v : Value} (hv : v.IsRefused) (type : KeyType) (drains : Drains) :
    (KeySlot.secretKey .unchecked type).encode ((Value.fakeSecret v).refresh drains) =
      .error (HexText.objection v).fault := by
  have hscalar : Core.unchecked.toScalar ((Value.fakeSecret v).refresh drains) =
      .ok (v.refresh drains) := rfl
  have hrefused : ¬ (v.refresh drains).IsNumber :=
    fun h => hv.not_isNumber (Value.isNumber_of_refresh h)
  rw [KeySlot.encode, encodeSecretKey_of_not_isNumber hscalar hrefused,
    HexText.objection_fault_refresh, Outcome.map_error]

def fakeHolding (id : Option Nat) (v : Value) (others : List (String × Value)) : Value :=
  .model id Catalog.fake.name (("sk", .fakeSecret v) :: others)

section FakeDumps

variable {v : Value} {id : Option Nat} {others : List (String × Value)}

/-- A dump stops at the secret key whose scalar is refused, and reports the refusal. -/
theorem dump_fakeHolding_fails (hv : v.IsRefused) (medium : Medium) :
    (Catalog.fake.toModel.dump medium (fakeHolding id v others)).Fails
      (Dump.report medium (Dump.codecFault (HexText.objection v).fault)) := by
  apply Dumping.Fails.bind
  apply Dump.writeFields_fails
  · rfl
  · exact Dump.writeKey_fails (KeySlot.encode_refused hv .fakeSecret)

theorem dumpText_fakeHolding_fails (hv : v.IsRefused) :
    (Catalog.fake.toModel.dumpText (fakeHolding id v others)).Fails
      (Dump.report .text (Dump.codecFault (HexText.objection v).fault)) :=
  (dump_fakeHolding_fails hv .text).bind _

theorem dumpBytes_fakeHolding_fails (hv : v.IsRefused) :
    (Catalog.fake.toModel.dumpBytes (fakeHolding id v others)).Fails
      (Dump.report .text (Dump.codecFault (HexText.objection v).fault)) :=
  (dumpText_fakeHolding_fails hv).bind _

end FakeDumps

/-! ### Two runs -/

/-- Both runs fail, and with the same fault exactly when the values disclose the same. -/
def FailAsDisclosed {α : Type} (first second : Except Fault α) (v w : Value) : Prop :=
  ∃ f g, first = .error f ∧ second = .error g ∧ (f = g ↔ v.disclosed? = w.disclosed?)

theorem failAsDisclosed_of_described {α : Type} {first second : Except Fault α} {v w : Value}
    (htype : v.SameType w) (wrap : Fault → Fault)
    (hfirst : first = .error (wrap (HexText.objection v).fault))
    (hsecond : second = .error (wrap (HexText.objection w).fault))
    (hwrap : ∀ {f g}, wrap f = wrap g → Dump.described f = Dump.described g) :
    FailAsDisclosed first second v w := by
  refine ⟨_, _, hfirst, hsecond, ?_, ?_⟩
  · intro h
    exact HexText.disclosed_of_described htype (hwrap h)
  · intro h
    rw [HexText.objection_fault_of_disclosed htype h]

/-- Two secret keys whose scalars are refused and of one type fail to be encoded by any core, with
the same fault exactly when they disclose the same negative integer or none.  Two instances of the
model for keys of the unchecked core that differ in such scalars fail to be dumped in the same way,
as values, as text and as bytes. -/
theorem encode_failure_discloses (v w : Value) (hv : v.IsRefused) (hw : w.IsRefused)
    (htype : v.SameType w) :
    (∀ (core : Core) (key other : Value), core.toScalar key = .ok v → core.toScalar other = .ok w →
      FailAsDisclosed (encodeSecretKey core key) (encodeSecretKey core other) v w) ∧
    (∀ (id id' : Option Nat) (others : List (String × Value)),
      (∀ medium, FailAsDisclosed
        (Catalog.fake.toModel.dump medium (fakeHolding id v others)).outcome
        (Catalog.fake.toModel.dump medium (fakeHolding id' w others)).outcome v w) ∧
      FailAsDisclosed (Catalog.fake.toModel.dumpText (fakeHolding id v others)).outcome
        (Catalog.fake.toModel.dumpText (fakeHolding id' w others)).outcome v w ∧
      FailAsDisclosed (Catalog.fake.toModel.dumpBytes (fakeHolding id v others)).outcome
        (Catalog.fake.toModel.dumpBytes (fakeHolding id' w others)).outcome v w) := by
  constructor
  · intro core key other hkey hother
    apply failAsDisclosed_of_described htype (fun f => f)
    · exact encodeSecretKey_of_not_isNumber hkey hv.not_isNumber
    · exact encodeSecretKey_of_not_isNumber hother hw.not_isNumber
    · exact fun h => congrArg Dump.described h
  · intro id id' others
    refine ⟨?_, ?_, ?_⟩
    · intro medium
      exact failAsDisclosed_of_described htype _ (dump_fakeHolding_fails hv medium).outcome
        (dump_fakeHolding_fails hw medium).outcome Dump.described_of_report
    · exact failAsDisclosed_of_described htype _ (dumpText_fakeHolding_fails hv).outcome
        (dumpText_fakeHolding_fails hw).outcome Dump.described_of_report
    · exact failAsDisclosed_of_described htype _ (dumpBytes_fakeHolding_fails hv).outcome
        (dumpBytes_fakeHolding_fails hw).outcome Dump.described_of_report

/-- Two truth values in keys of the unchecked core are not told apart, neither by the encoder nor by
a dump to text. -/
theorem encode_failure_discloses_no_truthValue :
    (∃ f, encodeSecretKey .unchecked (.fakeSecret (.bool true)) = .error f ∧
      encodeSecretKey .unchecked (.fakeSecret (.bool false)) = .error f) ∧
    ∃ f, (Catalog.fake.toModel.dumpText (fakeHolding none (.bool true) [])).outcome = .error f ∧
      (Catalog.fake.toModel.dumpText (fakeHolding none (.bool false) [])).outcome = .error f := by
  have htype : (Value.bool true).SameType (.bool false) := by
    constructor
    · rfl
    · simp
  obtain ⟨hencode, hdumps⟩ :=
    encode_failure_discloses (.bool true) (.bool false) ⟨_, rfl⟩ ⟨_, rfl⟩ htype
  obtain ⟨f, g, hf, hg, hfg⟩ :=
    hencode .unchecked (.fakeSecret (.bool true)) (.fakeSecret (.bool false)) rfl rfl
  obtain ⟨f', g', hf', hg', hfg'⟩ := (hdumps none none []).2.1
  obtain rfl := hfg.mpr rfl
  obtain rfl := hfg'.mpr rfl
  exact ⟨⟨f, hf, hg⟩, f', hf', hg'⟩

/-- Two negative integers in keys of the unchecked core are told apart by the encoder. -/
theorem encode_failure_repeats_negative :
    ¬ ∀ (core : Core) (key other v w : Value), core.toScalar key = .ok v →
      core.toScalar other = .ok w → v.IsRefused → w.IsRefused → v.SameType w →
      encodeSecretKey core key = encodeSecretKey core other := by
  intro hall
  have htype : (Value.int (-1)).SameType (.int (-2)) := by
    constructor
    · rfl
    · simp
  have hsame := hall .unchecked (.fakeSecret (.int (-1))) (.fakeSecret (.int (-2))) _ _ rfl rfl
    ⟨_, rfl⟩ ⟨_, rfl⟩ htype
  have hfault : (Refusal.negative (-1)).fault = (Refusal.negative (-2)).fault :=
    Except.error.inj hsame
  have hdisclosed := HexText.disclosed_of_described htype (congrArg Dump.described hfault)
  have hbound := Integer.ten_le_textBound
  rw [Value.disclosed?, Value.disclosed?, if_pos (by omega), if_pos (by omega)] at hdisclosed
  cases hdisclosed

end KeyCodec
