import KeyCodec.Proofs.NormalForms
import KeyCodec.Model.Catalog
import KeyCodec.Value.Distinct
import Mathlib.Data.Finset.Sum

/-!
# Keys as values

A key is compared by what it stores, and what it stores says no more than its scalar or its point.
So equality of keys is equality of scalars or of points, equal keys have equal fingerprints, and a
set of keys has as many members as there are scalars and points among them.  One way to build a key
stands apart: a secret key that is built from a buffer keeps it, and a buffer has no fingerprint.
-/

namespace KeyCodec

namespace Value

/-- What a key says by itself when it is compared with a value: it leaves the answer open unless the
value is a key of its kind. -/
def ownAnswer? : Value → Value → Option Bool
  | secretKey k, secretKey l => some (k.stored.same l.stored)
  | publicKey k, publicKey l => some (k.toPoint.same l.toPoint)
  | _, _ => none

/-- Whether two values are equal when only keys have answers: the first is asked, then the second,
and two values of which neither answers are different ones. -/
def equalAsKeys (v w : Value) : Bool :=
  ((ownAnswer? v w).or (ownAnswer? w v)).getD false

/-- Whether two values differ.  They are asked in the same order whether they are equal, and an
answer is turned around. -/
def differAsKeys (v w : Value) : Bool :=
  (((ownAnswer? v w).map not).or ((ownAnswer? w v).map not)).getD true

def scalar? : Value → Option Nat
  | secretKey k => some k.number
  | _ => none

def coordinates? : Value → Option (Nat × Nat)
  | publicKey k => some (k.point.x.val, k.point.y.val)
  | _ => none

def scalars (vs : List Value) : Finset Nat :=
  (vs.filterMap scalar?).toFinset

def points (vs : List Value) : Finset (Nat × Nat) :=
  (vs.filterMap coordinates?).toFinset

/-- A secret key that the constructor has made of a buffer. -/
def IsOfBuffer (v : Value) : Prop :=
  ∃ bs k, SecretKey.ofValue (.buffer bs) = .ok k ∧ v = .secretKey k

end Value

/-! ### Equality -/

theorem SecretKey.secret_inj {k l : SecretKey} : k.secret = l.secret ↔ k.number = l.number := by
  constructor
  · intro h
    rw [number, number, h]
  · intro h
    rw [number_eq_val, number_eq_val] at h
    rw [secret, secret, h]

theorem SecretKey.same_iff_number {k l : SecretKey} :
    (Value.secretKey k).same (.secretKey l) = true ↔ k.number = l.number := by
  rw [same_iff, number_eq_val, number_eq_val]

theorem SecretKey.same_stored (k l : SecretKey) :
    k.stored.same l.stored = (Value.secretKey k).same (.secretKey l) := by
  have hsecret : k.stored.same l.stored = (k.secret == l.secret) := by
    unfold stored
    split <;> split <;> rfl
  rw [hsecret, Bool.eq_iff_iff, beq_iff_eq, secret_inj, same_iff_number]

theorem PublicKey.same_toPoint (k l : PublicKey) :
    k.toPoint.same l.toPoint = (Value.publicKey k).same (.publicKey l) := by
  rw [Bool.eq_iff_iff, same_iff, toPoint, toPoint, Value.same, Bool.and_eq_true,
    Value.same_int_iff, Value.same_int_iff, Int.natCast_inj, Int.natCast_inj]

theorem PublicKey.same_iff_toPoint {k l : PublicKey} :
    (Value.publicKey k).same (.publicKey l) = true ↔ k.toPoint = l.toPoint := by
  rw [same_iff, toPoint, toPoint, Value.point.injEq, Value.int.injEq, Value.int.injEq,
    Int.natCast_inj, Int.natCast_inj]

namespace Value

/-- A secret key equals nothing but secret keys, whichever side it stands on. -/
theorem same_secretKey_of_ne {v : Value} (h : ∀ l, v ≠ secretKey l) (k : SecretKey) :
    (secretKey k).same v = false ∧ v.same (secretKey k) = false := by
  cases v with
  | secretKey l => exact absurd rfl (h l)
  | float x =>
      cases hx : x.toDyadic? <;> simp [same, sameNumber, number?, integer?, hx]
  | _ => simp [same, sameNumber, number?, integer?]

/-- A public key equals nothing but public keys, whichever side it stands on. -/
theorem same_publicKey_of_ne {v : Value} (h : ∀ l, v ≠ publicKey l) (k : PublicKey) :
    (publicKey k).same v = false ∧ v.same (publicKey k) = false := by
  cases v with
  | publicKey l => exact absurd rfl (h l)
  | float x =>
      cases hx : x.toDyadic? <;> simp [same, sameNumber, number?, integer?, hx]
  | _ => simp [same, sameNumber, number?, integer?]

theorem ownAnswer?_secretKey_of_ne {v : Value} (h : ∀ l, v ≠ secretKey l) (k : SecretKey) :
    ownAnswer? (secretKey k) v = none ∧ ownAnswer? v (secretKey k) = none := by
  cases v with
  | secretKey l => exact absurd rfl (h l)
  | _ => exact ⟨rfl, rfl⟩

theorem ownAnswer?_publicKey_of_ne {v : Value} (h : ∀ l, v ≠ publicKey l) (k : PublicKey) :
    ownAnswer? (publicKey k) v = none ∧ ownAnswer? v (publicKey k) = none := by
  cases v with
  | publicKey l => exact absurd rfl (h l)
  | _ => exact ⟨rfl, rfl⟩

theorem equalAsKeys_secretKey (k : SecretKey) (v : Value) :
    equalAsKeys (secretKey k) v = (secretKey k).same v ∧
      equalAsKeys v (secretKey k) = v.same (secretKey k) := by
  by_cases h : ∃ l, v = secretKey l
  · obtain ⟨l, rfl⟩ := h
    simp [equalAsKeys, ownAnswer?, SecretKey.same_stored]
  · have hne : ∀ l, v ≠ secretKey l := fun l hl => h ⟨l, hl⟩
    obtain ⟨hkv, hvk⟩ := ownAnswer?_secretKey_of_ne hne k
    obtain ⟨hleft, hright⟩ := same_secretKey_of_ne hne k
    simp [equalAsKeys, hkv, hvk, hleft, hright]

theorem equalAsKeys_publicKey (k : PublicKey) (v : Value) :
    equalAsKeys (publicKey k) v = (publicKey k).same v ∧
      equalAsKeys v (publicKey k) = v.same (publicKey k) := by
  by_cases h : ∃ l, v = publicKey l
  · obtain ⟨l, rfl⟩ := h
    simp [equalAsKeys, ownAnswer?, PublicKey.same_toPoint]
  · have hne : ∀ l, v ≠ publicKey l := fun l hl => h ⟨l, hl⟩
    obtain ⟨hkv, hvk⟩ := ownAnswer?_publicKey_of_ne hne k
    obtain ⟨hleft, hright⟩ := same_publicKey_of_ne hne k
    simp [equalAsKeys, hkv, hvk, hleft, hright]

theorem differAsKeys_eq_not (v w : Value) : differAsKeys v w = !equalAsKeys v w := by
  unfold differAsKeys equalAsKeys
  cases ownAnswer? v w with
  | some answer => rfl
  | none => cases ownAnswer? w v <;> rfl

/-! ### Sets -/

theorem distinct_concat (vs : List Value) (v : Value) :
    distinct (vs ++ [v]) =
      if (distinct vs).any (same · v) then distinct vs else distinct vs ++ [v] := by
  rw [distinct, List.foldl_append]
  rfl

variable {κ : Type} [DecidableEq κ] {identity : Value → κ}

/-- What is kept of a list represents every identity in it once, as long as equality is equality of
identities. -/
theorem distinct_represents {vs : List Value}
    (h : ∀ v ∈ vs, ∀ w ∈ vs, v.same w = true ↔ identity v = identity w) :
    distinct vs ⊆ vs ∧ ((distinct vs).map identity).Nodup ∧
      ((distinct vs).map identity).toFinset = (vs.map identity).toFinset := by
  induction vs using List.reverseRecOn with
  | nil => exact ⟨List.Subset.refl _, .nil, rfl⟩
  | append_singleton vs v ih =>
      have hv : v ∈ vs ++ [v] := List.mem_append_right _ (List.mem_singleton_self v)
      have hvs : vs ⊆ vs ++ [v] := List.subset_append_left vs [v]
      obtain ⟨hsubset, hnodup, hidentities⟩ := ih fun a ha b hb => h a (hvs ha) b (hvs hb)
      have hseen : (distinct vs).any (same · v) = true ↔
          identity v ∈ (distinct vs).map identity := by
        rw [List.any_eq_true, List.mem_map]
        refine exists_congr fun a => and_congr_right fun ha => ?_
        exact h a (hvs (hsubset ha)) v hv
      rw [distinct_concat]
      split
      · next hany =>
        refine ⟨List.Subset.trans hsubset hvs, hnodup, ?_⟩
        have hmem : identity v ∈ (vs.map identity).toFinset := by
          rw [← hidentities, List.mem_toFinset]
          exact hseen.mp hany
        have hlast : ([v].map identity).toFinset ⊆ (vs.map identity).toFinset := by
          simpa using hmem
        rw [hidentities, List.map_append, List.toFinset_append, Finset.union_eq_left.mpr hlast]
      · next hany =>
        refine ⟨?_, ?_, ?_⟩
        · apply List.append_subset.mpr
          exact ⟨List.Subset.trans hsubset hvs, List.subset_append_right vs [v]⟩
        · rw [List.map_append, List.map_singleton, List.nodup_append]
          refine ⟨hnodup, List.nodup_singleton _, ?_⟩
          intro a ha b hb
          rw [List.mem_singleton.mp hb]
          rintro rfl
          exact hany (hseen.mpr ha)
        · rw [List.map_append, List.map_append, List.toFinset_append, List.toFinset_append,
            hidentities]

theorem length_distinct {vs : List Value}
    (h : ∀ v ∈ vs, ∀ w ∈ vs, v.same w = true ↔ identity v = identity w) :
    (distinct vs).length = (vs.map identity).toFinset.card := by
  obtain ⟨-, hnodup, hidentities⟩ := distinct_represents h
  rw [← hidentities, List.toFinset_card_of_nodup hnodup, List.length_map]

def identity? : Value → Option (Nat ⊕ Nat × Nat)
  | secretKey k => some (.inl k.number)
  | publicKey k => some (.inr (k.point.x.val, k.point.y.val))
  | _ => none

theorem same_iff_identity? {v w : Value} (hv : Built v) (hw : Built w) :
    v.same w = true ↔ v.identity? = w.identity? := by
  rcases hv.isKey with ⟨k, rfl⟩ | ⟨k, rfl⟩ <;> rcases hw.isKey with ⟨l, rfl⟩ | ⟨l, rfl⟩
  · simp [SecretKey.same_iff_number, identity?]
  · simp [same, identity?]
  · simp [same, identity?]
  · simp [PublicKey.same_iff, identity?]

theorem mem_scalars {vs : List Value} {n : Nat} :
    n ∈ scalars vs ↔ ∃ k, secretKey k ∈ vs ∧ k.number = n := by
  rw [scalars, List.mem_toFinset, List.mem_filterMap]
  constructor
  · rintro ⟨v, hv, hn⟩
    cases v with
    | secretKey k => exact ⟨k, hv, Option.some.inj hn⟩
    | _ => cases hn
  · rintro ⟨k, hk, hn⟩
    exact ⟨secretKey k, hk, congrArg some hn⟩

theorem mem_points {vs : List Value} {p : Nat × Nat} :
    p ∈ points vs ↔ ∃ k, publicKey k ∈ vs ∧ (k.point.x.val, k.point.y.val) = p := by
  rw [points, List.mem_toFinset, List.mem_filterMap]
  constructor
  · rintro ⟨v, hv, hp⟩
    cases v with
    | publicKey k => exact ⟨k, hv, Option.some.inj hp⟩
    | _ => cases hp
  · rintro ⟨k, hk, hp⟩
    exact ⟨publicKey k, hk, congrArg some hp⟩

/-- The identities of keys are their scalars on one side and their points on the other. -/
theorem toFinset_identities {keys : List Value} (h : ∀ v ∈ keys, Built v) :
    (keys.map identity?).toFinset =
      ((scalars keys).disjSum (points keys)).map Function.Embedding.some := by
  ext i
  rw [List.mem_toFinset, List.mem_map, Finset.mem_map]
  constructor
  · rintro ⟨v, hv, rfl⟩
    rcases (h v hv).isKey with ⟨k, rfl⟩ | ⟨k, rfl⟩
    · refine ⟨.inl k.number, ?_, rfl⟩
      exact Finset.inl_mem_disjSum.mpr (mem_scalars.mpr ⟨k, hv, rfl⟩)
    · refine ⟨.inr (k.point.x.val, k.point.y.val), ?_, rfl⟩
      exact Finset.inr_mem_disjSum.mpr (mem_points.mpr ⟨k, hv, rfl⟩)
  · rintro ⟨n | p, hmem, rfl⟩
    · obtain ⟨k, hk, rfl⟩ := mem_scalars.mp (Finset.inl_mem_disjSum.mp hmem)
      exact ⟨secretKey k, hk, rfl⟩
    · obtain ⟨k, hk, rfl⟩ := mem_points.mp (Finset.inr_mem_disjSum.mp hmem)
      exact ⟨publicKey k, hk, rfl⟩

/-- A list of keys has as many different ones as there are scalars and points in it. -/
theorem length_distinct_keys {keys : List Value} (h : ∀ v ∈ keys, Built v) :
    (distinct keys).length = (scalars keys).card + (points keys).card := by
  have hidentity : ∀ v ∈ keys, ∀ w ∈ keys, v.same w = true ↔ v.identity? = w.identity? := by
    intro v hv w hw
    exact same_iff_identity? (h v hv) (h w hw)
  rw [length_distinct hidentity, toFinset_identities h, Finset.card_map, Finset.card_disjSum]

end Value

/-! ### Fingerprints -/

/-- A buffer makes the key that its bytes make, only that the key is not sealed. -/
theorem SecretKey.ofValue_buffer (bs : List UInt8) :
    ofValue (.buffer bs) = (ofValue (.bytes bs)).map fun k => { k with isSealed := false } := by
  by_cases hlength : bs.length = width
  · simp only [ofValue, check, spelledBytes, checkLength, Value.length?, Value.octets, hlength,
      if_true, Outcome.bind_ok]
    cases scalarOf bs <;> rfl
  · simp [ofValue, check, spelledBytes, checkLength, Value.length?, hlength]

theorem SecretKey.isOfBuffer_iff {k : SecretKey} :
    (Value.secretKey k).IsOfBuffer ↔ k.isSealed = false := by
  constructor
  · rintro ⟨bs, l, hl, heq⟩
    cases heq
    rw [ofValue_buffer, Outcome.map_eq_ok_iff] at hl
    obtain ⟨m, -, rfl⟩ := hl
    rfl
  · intro h
    refine ⟨k.secret, k, ?_, rfl⟩
    have hbytes : ofValue (.bytes k.secret) = .ok k.sealed :=
      ofValue_bytes_eq_ok_iff.mpr ⟨Bytes.length_ofNat _ _, k.number_eq_val, rfl⟩
    rw [ofValue_buffer, hbytes, Outcome.map_ok, ← h]
    rfl

namespace Value

variable (declared : FieldNames)

theorem fingerprint_of_buffer {key : Value} (h : key.IsOfBuffer) :
    key.fingerprint declared = .error "bytearray" := by
  obtain ⟨bs, k, hk, rfl⟩ := h
  have hunsealed : k.isSealed = false := SecretKey.isOfBuffer_iff.mp ⟨bs, k, hk, rfl⟩
  simp [fingerprint, hunsealed]

theorem fingerprint_of_not_buffer {key : Value} (hkey : Built key) (h : ¬ key.IsOfBuffer) :
    key.fingerprint declared =
      .ok (key.identity?.toList.map (Sum.elim .secretKey fun p => .publicKey p.1 p.2)) := by
  rcases hkey.isKey with ⟨k, rfl⟩ | ⟨k, rfl⟩
  · have hsealed : k.isSealed = true := by
      rwa [SecretKey.isOfBuffer_iff, Bool.not_eq_false] at h
    simp [fingerprint, hsealed, identity?, SecretKey.number_eq_val]
  · simp [fingerprint, identity?]

/-- A key has a fingerprint unless it was made of a buffer. -/
theorem exists_fingerprint_iff {key : Value} (hkey : Built key) :
    (∃ f, key.fingerprint declared = .ok f) ↔ ¬ key.IsOfBuffer := by
  constructor
  · rintro ⟨f, hf⟩ hbuffer
    rw [fingerprint_of_buffer declared hbuffer] at hf
    cases hf
  · intro h
    exact ⟨_, fingerprint_of_not_buffer declared hkey h⟩

/-- Equal keys have one fingerprint, as long as they have any. -/
theorem sameFingerprint_of_same {v w : Value} (hv : Built v) (hw : Built w)
    (hvb : ¬ v.IsOfBuffer) (hwb : ¬ w.IsOfBuffer) (h : v.same w = true) :
    sameFingerprint declared v w = .ok true := by
  have hidentity : v.identity? = w.identity? := (same_iff_identity? hv hw).mp h
  simp [sameFingerprint, requireFingerprint, fingerprint_of_not_buffer declared hv hvb,
    fingerprint_of_not_buffer declared hw hwb, hidentity]

theorem requireFingerprints_of_forall {vs : List Value}
    (h : ∀ v ∈ vs, ∃ f, v.fingerprint declared = .ok f) :
    requireFingerprints declared vs = .ok () := by
  induction vs with
  | nil => rfl
  | cons v vs ih =>
      obtain ⟨hv, hvs⟩ := List.forall_mem_cons.mp h
      obtain ⟨f, hf⟩ := hv
      rw [requireFingerprints, requireFingerprint, hf, Outcome.mapError_ok, Outcome.bind_ok, ih hvs]

theorem requireFingerprints_of_buffer {keys : List Value} (h : ∀ v ∈ keys, Built v)
    (hbuffer : ∃ v ∈ keys, v.IsOfBuffer) :
    requireFingerprints declared keys = .error (unhashable "bytearray") := by
  induction keys with
  | nil =>
      obtain ⟨v, hv, -⟩ := hbuffer
      cases hv
  | cons key keys ih =>
      obtain ⟨hkey, hkeys⟩ := List.forall_mem_cons.mp h
      by_cases hfirst : key.IsOfBuffer
      · rw [requireFingerprints, requireFingerprint, fingerprint_of_buffer declared hfirst,
          Outcome.mapError_error, Outcome.bind_error]
      · have hrest : ∃ v ∈ keys, v.IsOfBuffer := by
          obtain ⟨v, hv, hvb⟩ := hbuffer
          rcases List.mem_cons.mp hv with rfl | hv
          · exact absurd hvb hfirst
          · exact ⟨v, hv, hvb⟩
        rw [requireFingerprints, requireFingerprint,
          fingerprint_of_not_buffer declared hkey hfirst, Outcome.mapError_ok, Outcome.bind_ok,
          ih hkeys hrest]

theorem countDistinct_keys {keys : List Value} (h : ∀ v ∈ keys, Built v)
    (hbuffer : ∀ v ∈ keys, ¬ v.IsOfBuffer) :
    countDistinct declared keys = .ok ((scalars keys).card + (points keys).card) := by
  have hfingerprints : requireFingerprints declared keys = .ok () := by
    apply requireFingerprints_of_forall
    intro v hv
    exact (exists_fingerprint_iff declared (h v hv)).mpr (hbuffer v hv)
  rw [countDistinct, hfingerprints, Outcome.bind_ok, length_distinct_keys h, Outcome.pure_eq_ok]

theorem countDistinct_of_buffer {keys : List Value} (h : ∀ v ∈ keys, Built v)
    (hbuffer : ∃ v ∈ keys, v.IsOfBuffer) :
    countDistinct declared keys = .error (unhashable "bytearray") := by
  rw [countDistinct, requireFingerprints_of_buffer declared h hbuffer, Outcome.bind_error]

end Value

/-! ### Keys as values -/

/-- Keys behave as values.  They are equal exactly when their scalars or points are, and different
otherwise, whichever of the two values is asked; no other value is equal to a key.  All but the keys
that are made of a buffer have a fingerprint, which equal ones share.  So a set of keys has as many
members as there are scalars and points among them, unless one of them is made of a buffer. -/
theorem keys_compare_as_values (declared : Value.FieldNames) :
    (∀ k l : SecretKey, (Value.secretKey k).same (.secretKey l) = true ↔ k.number = l.number) ∧
    (∀ k l : PublicKey, (Value.publicKey k).same (.publicKey l) = true ↔ k.toPoint = l.toPoint) ∧
    (∀ (k : SecretKey) (v : Value), (∀ l, v ≠ .secretKey l) →
      (Value.secretKey k).same v = false ∧ v.same (.secretKey k) = false) ∧
    (∀ (k : PublicKey) (v : Value), (∀ l, v ≠ .publicKey l) →
      (Value.publicKey k).same v = false ∧ v.same (.publicKey k) = false) ∧
    (∀ key : Value, Built key → ∀ v : Value,
      key.equalAsKeys v = key.same v ∧ key.differAsKeys v = !key.same v ∧
        v.equalAsKeys key = v.same key ∧ v.differAsKeys key = !v.same key) ∧
    (∀ key : Value, Built key →
      ((∃ f, key.fingerprint declared = .ok f) ↔ ¬ key.IsOfBuffer)) ∧
    (∀ key other : Value, Built key → Built other → ¬ key.IsOfBuffer → ¬ other.IsOfBuffer →
      key.same other = true → Value.sameFingerprint declared key other = .ok true) ∧
    ∀ keys : List Value, (∀ key ∈ keys, Built key) →
      (Value.distinct keys).length = (Value.scalars keys).card + (Value.points keys).card ∧
      ((∀ key ∈ keys, ¬ key.IsOfBuffer) → Value.countDistinct declared keys =
        .ok ((Value.scalars keys).card + (Value.points keys).card)) ∧
      ((∃ key ∈ keys, key.IsOfBuffer) → Value.countDistinct declared keys =
        .error (Value.unhashable "bytearray")) := by
  refine ⟨?_, ?_, ?_, ?_, ?_, ?_, ?_, ?_⟩
  · intro k l
    exact SecretKey.same_iff_number
  · intro k l
    exact PublicKey.same_iff_toPoint
  · intro k v hv
    exact Value.same_secretKey_of_ne hv k
  · intro k v hv
    exact Value.same_publicKey_of_ne hv k
  · intro key hkey v
    have hequal : key.equalAsKeys v = key.same v ∧ v.equalAsKeys key = v.same key := by
      rcases hkey.isKey with ⟨k, rfl⟩ | ⟨k, rfl⟩
      · exact Value.equalAsKeys_secretKey k v
      · exact Value.equalAsKeys_publicKey k v
    rw [Value.differAsKeys_eq_not, Value.differAsKeys_eq_not, hequal.1, hequal.2]
    exact ⟨rfl, rfl, rfl, rfl⟩
  · intro key hkey
    exact Value.exists_fingerprint_iff declared hkey
  · intro key other hkey hother hkb hob
    exact Value.sameFingerprint_of_same declared hkey hother hkb hob
  · intro keys hkeys
    refine ⟨Value.length_distinct_keys hkeys, ?_, ?_⟩
    · exact Value.countDistinct_keys declared hkeys
    · exact Value.countDistinct_of_buffer declared hkeys

/-- The key of one, the key of the base point and the key of one again are two keys. -/
theorem keys_compare_as_values_of_smallest :
    ∃ k l, SecretKey.ofInteger (.int 1) = .ok k ∧
      PublicKey.ofPoint (.point (.int Curve.baseX.val) (.int Curve.baseY.val)) = .ok l ∧
      Value.countDistinct Catalog.fieldNames [.secretKey k, .publicKey l, .secretKey k] = .ok 2 := by
  let k : SecretKey := ⟨⟨1, by decide, by decide⟩, true⟩
  let l : PublicKey := ⟨Curve.baseX, Curve.baseY, Curve.onCurve_base⟩
  have hk : SecretKey.ofInteger (.int 1) = .ok k := SecretKey.ofInteger_eq_ok_iff.mpr ⟨rfl, rfl⟩
  have hl : PublicKey.ofPoint (.point (.int Curve.baseX.val) (.int Curve.baseY.val)) = .ok l :=
    PublicKey.ofPoint_point_eq_ok_iff.mpr ⟨rfl, rfl⟩
  have hbuilt : ∀ key ∈ [Value.secretKey k, .publicKey l, .secretKey k], Built key := by
    simp [Built.secretOfInteger hk, Built.publicOfPoint hl]
  have hbuffer : ∀ key ∈ [Value.secretKey k, .publicKey l, .secretKey k], ¬ key.IsOfBuffer := by
    have hsecret : ¬ (Value.secretKey k).IsOfBuffer := by
      rw [SecretKey.isOfBuffer_iff]
      decide
    have hpublic : ¬ (Value.publicKey l).IsOfBuffer := by
      rintro ⟨bs, m, -, h⟩
      cases h
    simp [hsecret, hpublic]
  have hscalars : Value.scalars [.secretKey k, .publicKey l, .secretKey k] = {k.number} := by
    have hmembers : [.secretKey k, .publicKey l, .secretKey k].filterMap Value.scalar? =
        [k.number, k.number] := rfl
    rw [Value.scalars, hmembers, List.toFinset_cons, Finset.insert_eq_of_mem (by simp)]
    rfl
  have hpoints : Value.points [.secretKey k, .publicKey l, .secretKey k] =
      {(l.point.x.val, l.point.y.val)} := rfl
  refine ⟨k, l, hk, hl, ?_⟩
  rw [((keys_compare_as_values Catalog.fieldNames).2.2.2.2.2.2.2 _ hbuilt).2.1 hbuffer, hscalars,
    hpoints, Finset.card_singleton, Finset.card_singleton]

/-- A secret key that the constructor makes of a buffer has no fingerprint. -/
theorem keys_compare_as_values_except_buffers :
    ∃ k, SecretKey.ofValue (.buffer (List.replicate 32 0x22)) = .ok k ∧
      Value.requireFingerprint Catalog.fieldNames (.secretKey k) =
        .error (.ofMessage .type "unhashable type: 'bytearray'") := by
  refine ⟨_, rfl, ?_⟩
  rfl

end KeyCodec
