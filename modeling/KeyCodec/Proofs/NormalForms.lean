import KeyCodec.Proofs.HexGrammar
import KeyCodec.Proofs.RoundTrip

/-!
# Decoding normalizes

What has been decoded is encoded in its normal form, whatever its spelling was.  For this a core
only has to keep the numbers that it is given: to hand out the numbers it has built a key from, and
to tell keys apart by them.  The core of the curve keeps the numbers that it accepts, because these
are scalars and coordinates and fit into the bytes of keys; the unchecked core keeps all numbers.
-/

namespace KeyCodec

open Record

/-! ### Normal forms -/

def normalText (s : String) : String :=
  String.ofList (Hex.normalize s.toList)

namespace Record

/-- The last digits on an axis, or a zero if there are none, in small letters and without leading
zeros. -/
def normalDigits (axis : Axis) (items : List Value) : List Char :=
  Hex.normalize ((items.filterMap (digitsOn axis)).getLast?.getD ['0'])

/-- The table of `x` and `y`, in this order, with the last text on each axis in its normal form. -/
def normalForm (record : Value) : Value :=
  let items := (items? record).getD []
  recordOf (String.ofList (normalDigits .x items)) (String.ofList (normalDigits .y items))

/-- A table of `x` and `y`, in this order, with canonical texts. -/
def IsCanonical (record : Value) : Prop :=
  ∃ sx sy : String, Hex.IsCanonical sx.toList ∧ Hex.IsCanonical sy.toList ∧
    record = recordOf sx sy

def swappedOf (sx sy : String) : Value :=
  .table [(.text Axis.y.name, .text sy), (.text Axis.x.name, .text sx)]

/-- A table of `x` and `y`, in either order, with canonical texts. -/
def IsCanonicalUpToOrder (record : Value) : Prop :=
  ∃ sx sy : String, Hex.IsCanonical sx.toList ∧ Hex.IsCanonical sy.toList ∧
    (record = recordOf sx sy ∨ record = swappedOf sx sy)

end Record

theorem Hex.ofNat_inj {m n : Nat} : ofNat m = ofNat n ↔ m = n := by
  constructor
  · intro h
    rw [← value_ofNat m, h, value_ofNat]
  · rintro rfl
    rfl

theorem Hex.isCanonical_written (n : Nat) : IsCanonical (String.ofList (ofNat n)).toList := by
  rw [String.toList_ofList]
  exact isCanonical_ofNat n

theorem Hex.IsCanonical.isHex {text : List Char} (h : IsCanonical text) : isHex text = true := by
  rw [← ofNat_value_of_canonical h]
  exact isHex_ofNat _

theorem Hex.normalize_eq_self_iff {text : List Char} (h : IsRun text) :
    normalize text = text ↔ IsCanonical text := by
  constructor
  · intro hnormal
    rw [← hnormal]
    exact isCanonical_normalize h.2
  · intro hcanonical
    rw [← ofNat_value h.2, ofNat_value_of_canonical hcanonical]

theorem Record.ofNat_last? (axis : Axis) (items : List Value) :
    Hex.ofNat ((last? axis items).getD 0) = normalDigits axis items := by
  unfold last? normalDigits
  cases hlast : (items.filterMap (digitsOn axis)).getLast? with
  | none =>
      have hzero : Hex.value ['0'] = 0 := by decide
      have hdigits : ∀ c ∈ ['0'], Hex.IsNumeral c := Hex.forall_mem_of_all (by decide)
      rw [Option.map_none, Option.getD_none, Option.getD_none, ← Hex.ofNat_value hdigits, hzero]
  | some digits =>
      obtain ⟨item, -, hdigits⟩ := List.mem_filterMap.mp (List.mem_of_getLast? hlast)
      obtain ⟨s, -, hhex, -⟩ := digitsOn_eq_some_iff.mp hdigits
      rw [Option.map_some, Option.getD_some, Option.getD_some,
        Hex.ofNat_value (Hex.isHex_iff.mp hhex).2]

theorem Record.exists_numbers_of_meaning {strict : Bool} {record point : Value}
    (h : meaning? strict record = some point) :
    ∃ x y : Nat, point = .point (.int x) (.int y) ∧
      normalForm record = recordOf (String.ofList (Hex.ofNat x)) (String.ofList (Hex.ofNat y)) := by
  obtain ⟨items, hitems, -, rfl⟩ := meaning?_eq_some_iff.mp h
  refine ⟨_, _, rfl, ?_⟩
  simp only [normalForm, hitems.items?_eq, Option.getD_some, ofNat_last?]

theorem Record.recordOf_inj {a b c d : String} : recordOf a b = recordOf c d ↔ a = c ∧ b = d := by
  simp [recordOf]

theorem Record.recordOf_ofNat_inj {x y m n : Nat} :
    recordOf (String.ofList (Hex.ofNat x)) (String.ofList (Hex.ofNat y)) =
      recordOf (String.ofList (Hex.ofNat m)) (String.ofList (Hex.ofNat n)) ↔ x = m ∧ y = n := by
  rw [recordOf_inj, String.ofList_inj, String.ofList_inj, Hex.ofNat_inj, Hex.ofNat_inj]

/-! ### Equality of records -/

theorem Value.same_int_iff {m n : Int} : (Value.int m).same (.int n) = true ↔ m = n := by
  have hread : ∀ i, (Dyadic.ofInt i).toRat = i := by
    intro i
    simp [Dyadic.ofInt, Dyadic.toRat_ofIntWithPrec_eq_mul_two_pow]
  have hsame : (Value.int m).same (.int n) = (Dyadic.ofInt m == Dyadic.ofInt n) := rfl
  rw [hsame, beq_iff_eq, ← Dyadic.toRat_inj, hread, hread, Int.cast_inj]

theorem Value.same_text_iff {s : String} {v : Value} :
    (Value.text s).same v = true ↔ v = .text s := by
  cases v with
  | text t => rw [Value.same, beq_iff_eq, Value.text.injEq, eq_comm]
  | _ => simp [Value.same]

theorem Value.mem_of_any_same {entries : List (Value × Value)} {k v : String}
    (h : entries.any (fun (l, w) => (Value.text k).same l && (Value.text v).same w) = true) :
    (.text k, .text v) ∈ entries := by
  obtain ⟨⟨l, w⟩, hmem, hsame⟩ := List.any_eq_true.mp h
  obtain ⟨hl, hw⟩ := Bool.and_eq_true_iff.mp hsame
  rwa [same_text_iff.mp hl, same_text_iff.mp hw] at hmem

/-- Equality of tables does not mind the order of entries, and nothing but that.  Both fields are
among the two entries, so only their order is open. -/
theorem Record.same_recordOf_iff {sx sy : String} {v : Value} :
    (recordOf sx sy).same v = true ↔ v = recordOf sx sy ∨ v = swappedOf sx sy := by
  constructor
  · intro h
    cases v with
    | table others =>
        rw [recordOf, Value.same, Bool.and_eq_true, beq_iff_eq, Value.sameEntries,
          Bool.and_eq_true, Value.sameEntries, Bool.and_eq_true] at h
        obtain ⟨hlength, hx, hy, -⟩ := h
        have hxMem := Value.mem_of_any_same hx
        have hyMem := Value.mem_of_any_same hy
        obtain ⟨first, second, rfl⟩ := List.length_eq_two.mp hlength.symm
        rw [List.mem_pair] at hxMem hyMem
        rcases hxMem with rfl | rfl
        · rcases hyMem with hy | rfl
          · simp [Axis.name] at hy
          · exact Or.inl rfl
        · rcases hyMem with rfl | hy
          · exact Or.inr rfl
          · simp [Axis.name] at hy
    | _ => simp [recordOf, Value.same] at h
  · rintro (rfl | rfl)
    · simp [recordOf, Value.same, Value.sameEntries]
    · simp [recordOf, swappedOf, Value.same, Value.sameEntries]

theorem Record.meaning?_swappedOf (strict : Bool) {sx sy : String}
    (hx : Hex.isHex sx.toList = true) (hy : Hex.isHex sy.toList = true) :
    meaning? strict (swappedOf sx sy) = meaning? strict (recordOf sx sy) := by
  have hdigitsX : digitsOn .x (.tuple [.text Axis.x.name, .text sx]) = some sx.toList :=
    digitsOn_eq_some_iff.mpr ⟨_, rfl, hx, rfl⟩
  have hdigitsY : digitsOn .y (.tuple [.text Axis.y.name, .text sy]) = some sy.toList :=
    digitsOn_eq_some_iff.mpr ⟨_, rfl, hy, rfl⟩
  have hxy := digitsOn_other hdigitsX (show Axis.y ≠ .x by decide)
  have hyx := digitsOn_other hdigitsY (show Axis.x ≠ .y by decide)
  apply meaning?_of_perm rfl rfl (List.Perm.swap _ _ [])
  intro axis
  cases axis with
  | x => simp [fieldsOn, hdigitsX, hyx]
  | y => simp [fieldsOn, hdigitsY, hxy]

theorem Record.isCanonical_normalForm {strict : Bool} {record point : Value}
    (h : meaning? strict record = some point) : IsCanonical (normalForm record) := by
  obtain ⟨x, y, -, hnormal⟩ := exists_numbers_of_meaning h
  exact ⟨_, _, Hex.isCanonical_written x, Hex.isCanonical_written y, hnormal⟩

theorem Record.normalForm_of_canonical {strict : Bool} {record point : Value} {sx sy : String}
    (h : meaning? strict record = some point) (hx : Hex.IsCanonical sx.toList)
    (hy : Hex.IsCanonical sy.toList)
    (hrecord : record = recordOf sx sy ∨ record = swappedOf sx sy) :
    normalForm record = recordOf sx sy := by
  have hwritten : ∀ {s : String}, Hex.IsCanonical s.toList →
      String.ofList (Hex.ofNat (Hex.value s.toList)) = s := by
    intro s hs
    rw [Hex.ofNat_value_of_canonical hs, String.ofList_toList]
  have hspelled := meaning?_recordOf_of_isHex strict hx.isHex hy.isHex
  have hmeaning : meaning? strict record = meaning? strict (recordOf sx sy) := by
    rcases hrecord with rfl | rfl
    · rfl
    · exact meaning?_swappedOf strict hx.isHex hy.isHex
  obtain ⟨x, y, rfl, hnormal⟩ := exists_numbers_of_meaning h
  rw [h, hspelled, Option.some.injEq, Value.point.injEq, Value.int.injEq, Value.int.injEq,
    Int.natCast_inj, Int.natCast_inj] at hmeaning
  rw [hnormal, hmeaning.1, hmeaning.2, hwritten hx, hwritten hy]

theorem Record.normalForm_eq_self_iff {strict : Bool} {record point : Value}
    (h : meaning? strict record = some point) :
    normalForm record = record ↔ IsCanonical record := by
  constructor
  · intro hsame
    rw [← hsame]
    exact isCanonical_normalForm h
  · rintro ⟨sx, sy, hx, hy, hrecord⟩
    rw [normalForm_of_canonical h hx hy (Or.inl hrecord), hrecord]

/-- A record in order equals its normal form when it is canonical but for the order of its entries.
-/
theorem Record.same_normalForm_iff {strict : Bool} {record point : Value}
    (h : meaning? strict record = some point) :
    (normalForm record).same record = true ↔ IsCanonicalUpToOrder record := by
  constructor
  · intro hsame
    obtain ⟨sx, sy, hx, hy, hnormal⟩ := isCanonical_normalForm h
    rw [hnormal] at hsame
    exact ⟨sx, sy, hx, hy, same_recordOf_iff.mp hsame⟩
  · rintro ⟨sx, sy, hx, hy, hrecord⟩
    rw [normalForm_of_canonical h hx hy hrecord]
    exact same_recordOf_iff.mpr hrecord

/-! ### Cores that keep numbers -/

/-- The core hands out the numbers it has built a key from, and tells keys apart by them. -/
structure Core.KeepsNumbers (core : Core) : Prop where
  scalar : ∀ {n : Nat} {key : Value}, core.ofScalar (.int n) = .ok key →
    core.toScalar key = .ok (.int n)
  same_scalar_iff : ∀ {m n : Nat} {key other : Value}, core.ofScalar (.int m) = .ok key →
    core.ofScalar (.int n) = .ok other → (key.same other = true ↔ m = n)
  point : ∀ {x y : Nat} {key : Value}, core.ofPoint (.point (.int x) (.int y)) = .ok key →
    core.toPoint key = .ok (.point (.int x) (.int y))
  same_point_iff : ∀ {x y m n : Nat} {key other : Value},
    core.ofPoint (.point (.int x) (.int y)) = .ok key →
    core.ofPoint (.point (.int m) (.int n)) = .ok other →
    (key.same other = true ↔ x = m ∧ y = n)

theorem Core.ofScalar_secp256k1_eq_ok {n : Nat} {key : Value}
    (h : secp256k1.ofScalar (.int n) = .ok key) :
    ∃ k, key = .secretKey k ∧ k.scalar.val = n := by
  obtain ⟨k, hk, rfl⟩ := Outcome.map_eq_ok_iff.mp h
  obtain ⟨hval, -⟩ := SecretKey.ofInteger_eq_ok_iff.mp hk
  exact ⟨k, rfl, (Int.natCast_inj.mp (Option.some.inj hval)).symm⟩

theorem Core.ofPoint_secp256k1_eq_ok {x y : Nat} {key : Value}
    (h : secp256k1.ofPoint (.point (.int x) (.int y)) = .ok key) :
    ∃ k, key = .publicKey k ∧ k.point.x.val = x ∧ k.point.y.val = y := by
  obtain ⟨k, hk, rfl⟩ := Outcome.map_eq_ok_iff.mp h
  obtain ⟨hx, hy⟩ := PublicKey.ofPoint_point_eq_ok_iff.mp hk
  exact ⟨k, rfl, (Int.natCast_inj.mp (Option.some.inj hx)).symm,
    (Int.natCast_inj.mp (Option.some.inj hy)).symm⟩

theorem SecretKey.same_iff {k l : SecretKey} :
    (Value.secretKey k).same (.secretKey l) = true ↔ k.scalar.val = l.scalar.val := by
  obtain ⟨⟨m, hmpos, hmlt⟩, a⟩ := k
  obtain ⟨⟨n, hnpos, hnlt⟩, b⟩ := l
  simp [Value.same, SecretKey.same]

theorem PublicKey.same_iff {k l : PublicKey} :
    (Value.publicKey k).same (.publicKey l) = true ↔
      k.point.x.val = l.point.x.val ∧ k.point.y.val = l.point.y.val := by
  obtain ⟨⟨a, b, hab⟩⟩ := k
  obtain ⟨⟨c, d, hcd⟩⟩ := l
  simp [Value.same, Fin.ext_iff]

theorem Core.keepsNumbers_secp256k1 : Core.secp256k1.KeepsNumbers where
  scalar h := by
    obtain ⟨k, rfl, rfl⟩ := ofScalar_secp256k1_eq_ok h
    rw [← k.number_eq_val]
    rfl
  same_scalar_iff h hother := by
    obtain ⟨k, rfl, rfl⟩ := ofScalar_secp256k1_eq_ok h
    obtain ⟨l, rfl, rfl⟩ := ofScalar_secp256k1_eq_ok hother
    exact SecretKey.same_iff
  point h := by
    obtain ⟨k, rfl, rfl, rfl⟩ := ofPoint_secp256k1_eq_ok h
    rfl
  same_point_iff h hother := by
    obtain ⟨k, rfl, rfl, rfl⟩ := ofPoint_secp256k1_eq_ok h
    obtain ⟨l, rfl, rfl, rfl⟩ := ofPoint_secp256k1_eq_ok hother
    exact PublicKey.same_iff

theorem Core.keepsNumbers_unchecked : Core.unchecked.KeepsNumbers where
  scalar h := by
    cases h
    rfl
  same_scalar_iff h hother := by
    cases h
    cases hother
    rw [Value.same, Value.same_int_iff, Int.natCast_inj]
  point h := by
    cases h
    rfl
  same_point_iff h hother := by
    cases h
    cases hother
    rw [Value.same, Value.same, Bool.and_eq_true, Value.same_int_iff, Value.same_int_iff,
      Int.natCast_inj, Int.natCast_inj]

/-! ### Encoding what has been decoded -/

def RewritesSecret (core : Core) (v : Value) (text : String) : Prop :=
  ∃ key, decodeSecretKey core v = .ok key ∧ encodeSecretKey core key = .ok text

def RewritesPublic (core : Core) (strict : Bool) (record other : Value) : Prop :=
  ∃ key, (decodePublicKey core strict record).outcome = .ok key ∧
    encodePublicKey core key = .ok other

/-- Texts are normalized: a decoded text is encoded in its normal form, which is not changed any
more; exactly the canonical texts are not changed at all; and keys are equal exactly when the normal
forms of their texts are. -/
structure Core.NormalizesTexts (core : Core) : Prop where
  written : ∀ {v key : Value}, decodeSecretKey core v = .ok key →
    ∃ s, v = .text s ∧ encodeSecretKey core key = .ok (normalText s)
  again : ∀ {v : Value} {text : String}, RewritesSecret core v text →
    RewritesSecret core (.text text) text
  unchanged_iff : ∀ {s text : String}, RewritesSecret core (.text s) text →
    (text = s ↔ Hex.IsCanonical s.toList)
  same_iff : ∀ {s t : String} {key other : Value}, decodeSecretKey core (.text s) = .ok key →
    decodeSecretKey core (.text t) = .ok other →
    (key.same other = true ↔ normalText s = normalText t)

/-- Records are normalized in the same sense.  As equality of tables does not mind the order of
entries, a canonical table of `y` and `x` equals its normal form as well. -/
structure Core.NormalizesRecords (core : Core) : Prop where
  written : ∀ {strict : Bool} {record key : Value},
    (decodePublicKey core strict record).outcome = .ok key →
    encodePublicKey core key = .ok (normalForm record)
  again : ∀ {strict : Bool} {record other : Value}, RewritesPublic core strict record other →
    ∀ strict', RewritesPublic core strict' other other
  unchanged_iff : ∀ {strict : Bool} {record other : Value},
    RewritesPublic core strict record other → (other = record ↔ IsCanonical record)
  unchanged_up_to_order_iff : ∀ {strict : Bool} {record other : Value},
    RewritesPublic core strict record other →
    (other.same record = true ↔ IsCanonicalUpToOrder record)
  same_iff : ∀ {strict strict' : Bool} {record record' key other : Value},
    (decodePublicKey core strict record).outcome = .ok key →
    (decodePublicKey core strict' record').outcome = .ok other →
    (key.same other = true ↔ normalForm record = normalForm record')

theorem normalText_eq_ofNat {s : String} (h : Hex.IsRun s.toList) :
    normalText s = String.ofList (Hex.ofNat (Hex.value s.toList)) := by
  rw [normalText, Hex.ofNat_value h.2]

theorem normalText_eq_self_iff {s : String} (h : Hex.IsRun s.toList) :
    normalText s = s ↔ Hex.IsCanonical s.toList := by
  rw [← Hex.normalize_eq_self_iff h, ← String.toList_inj, normalText, String.toList_ofList]

theorem normalText_inj {s t : String} (hs : Hex.IsRun s.toList) (ht : Hex.IsRun t.toList) :
    normalText s = normalText t ↔ Hex.value s.toList = Hex.value t.toList := by
  rw [normalText_eq_ofNat hs, normalText_eq_ofNat ht, String.ofList_inj, Hex.ofNat_inj]

theorem exists_scalar_of_decoded {core : Core} {v key : Value}
    (h : decodeSecretKey core v = .ok key) :
    ∃ s, v = .text s ∧ Hex.IsRun s.toList ∧
      core.ofScalar (.int (Hex.value s.toList)) = .ok key := by
  obtain ⟨n, hread, hkey⟩ := decodeSecretKey_eq_ok_iff.mp h
  obtain ⟨s, rfl, hhex, rfl⟩ := HexText.decode_eq_ok_iff.mp hread
  exact ⟨s, rfl, Hex.isHex_iff.mp hhex, hkey⟩

theorem exists_point_of_decoded {core : Core} {strict : Bool} {record key : Value}
    (h : (decodePublicKey core strict record).outcome = .ok key) :
    ∃ x y : Nat, meaning? strict record = some (.point (.int x) (.int y)) ∧
      core.ofPoint (.point (.int x) (.int y)) = .ok key ∧
      normalForm record = recordOf (String.ofList (Hex.ofNat x)) (String.ofList (Hex.ofNat y)) := by
  obtain ⟨point, hmeaning, hkey⟩ := decodePublicKey_eq_ok_iff.mp h
  obtain ⟨x, y, rfl, hnormal⟩ := exists_numbers_of_meaning hmeaning
  exact ⟨x, y, hmeaning, hkey, hnormal⟩

namespace Core.KeepsNumbers

variable {core : Core} (hcore : core.KeepsNumbers)

include hcore

theorem encodeSecretKey_eq {n : Nat} {key : Value} (h : core.ofScalar (.int n) = .ok key) :
    encodeSecretKey core key = .ok (String.ofList (Hex.ofNat n)) :=
  encodeSecretKey_of_toScalar (hcore.scalar h)

theorem encodePublicKey_eq {x y : Nat} {key : Value}
    (h : core.ofPoint (.point (.int x) (.int y)) = .ok key) :
    encodePublicKey core key =
      .ok (recordOf (String.ofList (Hex.ofNat x)) (String.ofList (Hex.ofNat y))) :=
  encodePublicKey_of_toPoint (hcore.point h) rfl

theorem encodeSecretKey_of_decoded {s : String} {key : Value}
    (h : decodeSecretKey core (.text s) = .ok key) :
    encodeSecretKey core key = .ok (normalText s) := by
  obtain ⟨t, heq, hrun, hkey⟩ := exists_scalar_of_decoded h
  obtain rfl := Value.text.inj heq
  rw [hcore.encodeSecretKey_eq hkey, normalText_eq_ofNat hrun]

theorem encodePublicKey_of_decoded {strict : Bool} {record key : Value}
    (h : (decodePublicKey core strict record).outcome = .ok key) :
    encodePublicKey core key = .ok (normalForm record) := by
  obtain ⟨x, y, -, hkey, hnormal⟩ := exists_point_of_decoded h
  rw [hnormal, hcore.encodePublicKey_eq hkey]

/-- A text that is decoded can only be encoded in its normal form. -/
theorem eq_normalText_of_rewrites {s text : String} (h : RewritesSecret core (.text s) text) :
    text = normalText s ∧ Hex.IsRun s.toList := by
  obtain ⟨key, hkey, htext⟩ := h
  obtain ⟨t, heq, hrun, -⟩ := exists_scalar_of_decoded hkey
  obtain rfl := Value.text.inj heq
  rw [hcore.encodeSecretKey_of_decoded hkey] at htext
  exact ⟨(Except.ok.inj htext).symm, hrun⟩

/-- A record that is decoded can only be encoded in its normal form. -/
theorem eq_normalForm_of_rewrites {strict : Bool} {record other : Value}
    (h : RewritesPublic core strict record other) :
    ∃ point, meaning? strict record = some point ∧ other = normalForm record := by
  obtain ⟨key, hkey, hother⟩ := h
  obtain ⟨point, hmeaning, -⟩ := decodePublicKey_eq_ok_iff.mp hkey
  rw [hcore.encodePublicKey_of_decoded hkey] at hother
  exact ⟨point, hmeaning, (Except.ok.inj hother).symm⟩

theorem normalizesTexts : core.NormalizesTexts where
  written {v key} h := by
    obtain ⟨s, rfl, -, -⟩ := exists_scalar_of_decoded h
    exact ⟨s, rfl, hcore.encodeSecretKey_of_decoded h⟩
  again {v text} h := by
    obtain ⟨key, hkey, htext⟩ := h
    obtain ⟨s, rfl, -, hbuilt⟩ := exists_scalar_of_decoded hkey
    have htext' := hcore.encodeSecretKey_eq hbuilt
    obtain rfl := Except.ok.inj (htext.symm.trans htext')
    exact ⟨key, decodeSecretKey_eq_ok_iff.mpr ⟨_, HexText.decode_ofNat _, hbuilt⟩, htext⟩
  unchanged_iff {s text} h := by
    obtain ⟨rfl, hrun⟩ := hcore.eq_normalText_of_rewrites h
    exact normalText_eq_self_iff hrun
  same_iff {s t key other} h hother := by
    obtain ⟨_, heq, hs, hkey⟩ := exists_scalar_of_decoded h
    obtain rfl := Value.text.inj heq
    obtain ⟨_, heq, ht, hbuilt⟩ := exists_scalar_of_decoded hother
    obtain rfl := Value.text.inj heq
    rw [normalText_inj hs ht]
    exact hcore.same_scalar_iff hkey hbuilt

theorem normalizesRecords : core.NormalizesRecords where
  written := hcore.encodePublicKey_of_decoded
  again {strict record other} h strict' := by
    obtain ⟨key, hkey, hother⟩ := h
    obtain ⟨x, y, -, hbuilt, -⟩ := exists_point_of_decoded hkey
    obtain rfl := Except.ok.inj (hother.symm.trans (hcore.encodePublicKey_eq hbuilt))
    exact ⟨key, decodePublicKey_eq_ok_iff.mpr ⟨_, meaning?_recordOf strict' x y, hbuilt⟩, hother⟩
  unchanged_iff {strict record other} h := by
    obtain ⟨point, hmeaning, rfl⟩ := hcore.eq_normalForm_of_rewrites h
    exact normalForm_eq_self_iff hmeaning
  unchanged_up_to_order_iff {strict record other} h := by
    obtain ⟨point, hmeaning, rfl⟩ := hcore.eq_normalForm_of_rewrites h
    exact same_normalForm_iff hmeaning
  same_iff {strict strict' record record' key other} h hother := by
    obtain ⟨x, y, -, hkey, hnormal⟩ := exists_point_of_decoded h
    obtain ⟨m, n, -, hbuilt, hnormal'⟩ := exists_point_of_decoded hother
    rw [hnormal, hnormal', recordOf_ofNat_inj]
    exact hcore.same_point_iff hkey hbuilt

end Core.KeepsNumbers

/-- Under the core of the curve and under the unchecked core, encoding what has been decoded
normalizes texts and records. -/
theorem reencode_normalizes :
    (Core.secp256k1.NormalizesTexts ∧ Core.unchecked.NormalizesTexts) ∧
      Core.secp256k1.NormalizesRecords ∧ Core.unchecked.NormalizesRecords :=
  ⟨⟨Core.keepsNumbers_secp256k1.normalizesTexts, Core.keepsNumbers_unchecked.normalizesTexts⟩,
    Core.keepsNumbers_secp256k1.normalizesRecords, Core.keepsNumbers_unchecked.normalizesRecords⟩

/-- A text with zeros in front and capital letters, and a list of fields with a repeated and a
missing axis, are decoded and encoded in their normal forms. -/
theorem reencode_normalizes_of_spellings :
    (∃ key, decodeSecretKey .secp256k1 (.text "00FF") = .ok key ∧
      encodeSecretKey .secp256k1 key = .ok "ff") ∧
    ∃ key, (decodePublicKey .unchecked false
        (.list [.tuple [.text "x", .text "1"], .list [.text "x", .text "00A"]])).outcome = .ok key ∧
      encodePublicKey .unchecked key = .ok (recordOf "a" "0") := by
  obtain ⟨⟨htexts, -⟩, -, hrecords⟩ := reencode_normalizes
  constructor
  · have hread : HexText.decode (.text "00FF") = .ok 255 :=
      HexText.decode_text_iff.mpr ⟨by decide, by decide⟩
    have hkey : SecretKey.ofInteger (.int 255) = .ok ⟨⟨255, by decide, by decide⟩, true⟩ :=
      SecretKey.ofInteger_eq_ok_iff.mpr ⟨rfl, rfl⟩
    have hdecoded : decodeSecretKey .secp256k1 (.text "00FF") =
        .ok (.secretKey ⟨⟨255, by decide, by decide⟩, true⟩) :=
      decodeSecretKey_eq_ok_iff.mpr ⟨255, hread, Outcome.map_eq_ok_iff.mpr ⟨_, hkey, rfl⟩⟩
    have hnormal : normalText "00FF" = "ff" := by decide
    obtain ⟨s, hs, hencoded⟩ := htexts.written hdecoded
    obtain rfl := Value.text.inj hs
    rw [hnormal] at hencoded
    exact ⟨_, hdecoded, hencoded⟩
  · have hmeaning : meaning? false
        (.list [.tuple [.text "x", .text "1"], .list [.text "x", .text "00A"]]) =
          some (.point (.int 10) (.int 0)) := by
      rw [meaning?_of_items rfl, if_pos (by decide)]
      rfl
    have hdecoded := decodePublicKey_eq_ok_iff.mpr
      ⟨_, hmeaning, (rfl : Core.unchecked.ofPoint (.point (.int 10) (.int 0)) = .ok _)⟩
    have hnormal : normalForm
        (.list [.tuple [.text "x", .text "1"], .list [.text "x", .text "00A"]]) =
          recordOf "a" "0" :=
      recordOf_inj.mpr ⟨by decide, by decide⟩
    exact ⟨_, hdecoded, by rw [hrecords.written hdecoded, hnormal]⟩

end KeyCodec
