import KeyCodec.Proofs.KeyForms
import KeyCodec.Proofs.PublicReading

/-!
# What is written is read back

A codec writes what a core takes a key apart into, and hands to the core what it reads.  So a key is
read back whenever the core restores it from its own numbers; how long these are does not matter.
The core of the curve restores every key, however it was built, because the type of keys leaves room
for nothing but scalars in range and points of the curve; the unchecked core restores every key that
holds numbers.
-/

namespace KeyCodec

open Record

/-- The core takes a secret key apart into a number, and builds `other` from that number. -/
def Core.RestoresSecret (core : Core) (key other : Value) : Prop :=
  ∃ n : Nat, core.toScalar key = .ok (.int n) ∧ core.ofScalar (.int n) = .ok other

def Core.RestoresPublic (core : Core) (key other : Value) : Prop :=
  ∃ (pair : Value) (x y : Nat), core.toPoint key = .ok pair ∧
    unpackPair pair = .ok (.int x, .int y) ∧ core.ofPoint (.point (.int x) (.int y)) = .ok other

def RereadsSecret (core : Core) (key other : Value) : Prop :=
  ∃ text, encodeSecretKey core key = .ok text ∧ decodeSecretKey core (.text text) = .ok other

/-- A public key is written, and its record is read as `other`, strictly or not. -/
def RereadsPublic (core : Core) (key other : Value) : Prop :=
  ∃ record, encodePublicKey core key = .ok record ∧
    ∀ strict, (decodePublicKey core strict record).outcome = .ok other

theorem encodeSecretKey_of_toScalar {core : Core} {key : Value} {n : Nat}
    (h : core.toScalar key = .ok (.int n)) :
    encodeSecretKey core key = .ok (String.ofList (Hex.ofNat n)) := by
  rw [encodeSecretKey, h, Outcome.bind_ok, HexText.encode_natCast, Outcome.mapError_ok]

theorem encodePublicKey_of_toPoint {core : Core} {key pair : Value} {x y : Nat}
    (h : core.toPoint key = .ok pair) (hpair : unpackPair pair = .ok (.int x, .int y)) :
    encodePublicKey core key =
      .ok (recordOf (String.ofList (Hex.ofNat x)) (String.ofList (Hex.ofNat y))) := by
  simp only [encodePublicKey, h, hpair, Outcome.bind_ok, HexText.encode_natCast,
    Outcome.mapError_ok, Outcome.pure_eq_ok]

/-- A core that restores a secret key from its number restores it from its text. -/
theorem Core.RestoresSecret.rereads {core : Core} {key other : Value}
    (h : core.RestoresSecret key other) : RereadsSecret core key other := by
  obtain ⟨n, hto, hof⟩ := h
  refine ⟨String.ofList (Hex.ofNat n), encodeSecretKey_of_toScalar hto, ?_⟩
  simp only [decodeSecretKey, HexText.decode_ofNat]
  exact accept_eq_ok_iff.mpr hof

theorem Core.RestoresPublic.rereads {core : Core} {key other : Value}
    (h : core.RestoresPublic key other) : RereadsPublic core key other := by
  obtain ⟨pair, x, y, hto, hpair, hof⟩ := h
  refine ⟨recordOf (String.ofList (Hex.ofNat x)) (String.ofList (Hex.ofNat y)),
    encodePublicKey_of_toPoint hto hpair, ?_⟩
  intro strict
  exact decodePublicKey_eq_ok_iff.mpr ⟨_, meaning?_recordOf strict x y, hof⟩

/-! ### The core of the curve -/

/-- A value that is a key because some constructor or decoder has handed it out. -/
inductive Built : Value → Prop
  | secretOfValue {v : Value} {k : SecretKey} (h : SecretKey.ofValue v = .ok k) :
      Built (.secretKey k)
  | secretOfInteger {v : Value} {k : SecretKey} (h : SecretKey.ofInteger v = .ok k) :
      Built (.secretKey k)
  | secretDecoded {v key : Value} (h : decodeSecretKey .secp256k1 v = .ok key) : Built key
  | publicOfValue {v : Value} {k : PublicKey} (h : PublicKey.ofValue v = .ok k) :
      Built (.publicKey k)
  | publicOfPoint {v : Value} {k : PublicKey} (h : PublicKey.ofPoint v = .ok k) :
      Built (.publicKey k)
  | partner {k : SecretKey} {l : PublicKey} (hk : Built (.secretKey k)) (h : k.publicKey = .ok l) :
      Built (.publicKey l)
  | publicDecoded {strict : Bool} {record key : Value}
      (h : (decodePublicKey .secp256k1 strict record).outcome = .ok key) : Built key

def SecretKey.sealed (k : SecretKey) : SecretKey :=
  { k with isSealed := true }

/-- A value is decoded when it is a text of hex digits and the core has a key for their number. -/
theorem decodeSecretKey_eq_ok_iff {core : Core} {v key : Value} :
    decodeSecretKey core v = .ok key ↔
      ∃ n, HexText.decode v = .ok n ∧ core.ofScalar (.int n) = .ok key := by
  unfold decodeSecretKey
  cases HexText.decode v with
  | error r => simp
  | ok n => simp [accept_eq_ok_iff]

/-- Whatever a constructor or decoder hands out is a secret key or a public key. -/
theorem Built.isKey {key : Value} (h : Built key) :
    (∃ k, key = .secretKey k) ∨ ∃ k, key = .publicKey k := by
  cases h with
  | secretOfValue => exact Or.inl ⟨_, rfl⟩
  | secretOfInteger => exact Or.inl ⟨_, rfl⟩
  | secretDecoded h =>
      obtain ⟨n, -, hkey⟩ := decodeSecretKey_eq_ok_iff.mp h
      obtain ⟨k, -, rfl⟩ := Outcome.map_eq_ok_iff.mp hkey
      exact Or.inl ⟨k, rfl⟩
  | publicOfValue => exact Or.inr ⟨_, rfl⟩
  | publicOfPoint => exact Or.inr ⟨_, rfl⟩
  | partner => exact Or.inr ⟨_, rfl⟩
  | publicDecoded h =>
      obtain ⟨point, -, hkey⟩ := decodePublicKey_eq_ok_iff.mp h
      obtain ⟨k, -, rfl⟩ := Outcome.map_eq_ok_iff.mp hkey
      exact Or.inr ⟨k, rfl⟩

/-- The core of the curve restores every secret key from its scalar. -/
theorem SecretKey.restores (k : SecretKey) :
    Core.secp256k1.RestoresSecret (.secretKey k) (.secretKey k.sealed) := by
  refine ⟨k.number, rfl, Outcome.map_eq_ok_iff.mpr ⟨k.sealed, ?_, rfl⟩⟩
  rw [SecretKey.number_eq_val, SecretKey.ofInteger_eq_ok_iff]
  exact ⟨rfl, rfl⟩

theorem SecretKey.same_sealed (k : SecretKey) :
    (Value.secretKey k.sealed).same (.secretKey k) = true := by
  simp [Value.same, SecretKey.same, SecretKey.sealed]

/-- The core of the curve restores every public key from its coordinates. -/
theorem PublicKey.restores (k : PublicKey) :
    Core.secp256k1.RestoresPublic (.publicKey k) (.publicKey k) := by
  refine ⟨k.toPoint, k.point.x.val, k.point.y.val, rfl, rfl, ?_⟩
  exact Outcome.map_eq_ok_iff.mpr ⟨k, PublicKey.ofPoint_point_eq_ok_iff.mpr ⟨rfl, rfl⟩, rfl⟩

/-! ### The unchecked core -/

theorem Core.unchecked_restoresSecret (n : Nat) :
    Core.unchecked.RestoresSecret (.fakeSecret (.int n)) (.fakeSecret (.int n)) :=
  ⟨n, rfl, rfl⟩

theorem Core.unchecked_restoresPublic (x y : Nat) :
    Core.unchecked.RestoresPublic (.fakePublic (.point (.int x) (.int y)))
      (.fakePublic (.point (.int x) (.int y))) :=
  ⟨.point (.int x) (.int y), x, y, rfl, rfl, rfl⟩

/-! ### Round trips -/

/-- What is written is read back, under every core that restores the key; the core of the curve
restores every key however it was built, and the unchecked core every key that holds numbers. -/
theorem decode_encode :
    (∀ (core : Core) (key other : Value), core.RestoresSecret key other →
      RereadsSecret core key other) ∧
    (∀ (core : Core) (key other : Value), core.RestoresPublic key other →
      RereadsPublic core key other) ∧
    (∀ key : Value, Built key →
      (∃ k, key = .secretKey k ∧ Core.secp256k1.RestoresSecret key (.secretKey k.sealed) ∧
        RereadsSecret .secp256k1 key (.secretKey k.sealed) ∧
        (Value.secretKey k.sealed).same key = true) ∨
      ∃ k, key = .publicKey k ∧ Core.secp256k1.RestoresPublic key key ∧
        RereadsPublic .secp256k1 key key) ∧
    (∀ n : Nat, Core.unchecked.RestoresSecret (.fakeSecret (.int n)) (.fakeSecret (.int n)) ∧
      RereadsSecret .unchecked (.fakeSecret (.int n)) (.fakeSecret (.int n))) ∧
    (∀ x y : Nat, Core.unchecked.RestoresPublic (.fakePublic (.point (.int x) (.int y)))
        (.fakePublic (.point (.int x) (.int y))) ∧
      RereadsPublic .unchecked (.fakePublic (.point (.int x) (.int y)))
        (.fakePublic (.point (.int x) (.int y)))) := by
  refine ⟨fun core key other => Core.RestoresSecret.rereads,
    fun core key other => Core.RestoresPublic.rereads, ?_, ?_, ?_⟩
  · intro key hbuilt
    rcases hbuilt.isKey with ⟨k, rfl⟩ | ⟨k, rfl⟩
    · exact Or.inl ⟨k, rfl, k.restores, k.restores.rereads, k.same_sealed⟩
    · exact Or.inr ⟨k, rfl, k.restores, k.restores.rereads⟩
  · intro n
    exact ⟨Core.unchecked_restoresSecret n, (Core.unchecked_restoresSecret n).rereads⟩
  · intro x y
    exact ⟨Core.unchecked_restoresPublic x y, (Core.unchecked_restoresPublic x y).rereads⟩

/-- The secret key of one, built from that integer, and the key of the base point, built from its
coordinates, are read back. -/
theorem decode_encode_of_smallest :
    (∃ k, SecretKey.ofInteger (.int 1) = .ok k ∧
      RereadsSecret .secp256k1 (.secretKey k) (.secretKey k.sealed)) ∧
    ∃ k, PublicKey.ofPoint (.point (.int Curve.baseX.val) (.int Curve.baseY.val)) = .ok k ∧
      RereadsPublic .secp256k1 (.publicKey k) (.publicKey k) := by
  constructor
  · have hk : SecretKey.ofInteger (.int 1) = .ok ⟨⟨1, by decide, by decide⟩, true⟩ :=
      SecretKey.ofInteger_eq_ok_iff.mpr ⟨rfl, rfl⟩
    rcases decode_encode.2.2.1 _ (.secretOfInteger hk) with ⟨k, heq, -, hreread, -⟩ | ⟨k, heq, -⟩
    · cases heq
      exact ⟨_, hk, hreread⟩
    · cases heq
  · have hk : PublicKey.ofPoint (.point (.int Curve.baseX.val) (.int Curve.baseY.val)) =
        .ok ⟨Curve.baseX, Curve.baseY, Curve.onCurve_base⟩ :=
      PublicKey.ofPoint_point_eq_ok_iff.mpr ⟨rfl, rfl⟩
    rcases decode_encode.2.2.1 _ (.publicOfPoint hk) with ⟨k, heq, -⟩ | ⟨k, heq, -, hreread⟩
    · cases heq
    · cases heq
      exact ⟨_, hk, hreread⟩

end KeyCodec
