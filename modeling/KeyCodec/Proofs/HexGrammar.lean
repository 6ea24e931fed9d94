import KeyCodec.Proofs.FirstOffence
import Mathlib.Algebra.Ring.Nat
import Mathlib.Data.List.Induction
import Mathlib.Tactic.Ring

/-!
# One canonical text for each number

The grammar of hex text and its positional value are said here with the row of digits in hand, and
not with the reader.  Reading a text and writing its number gives the text in small letters without
leading zeros: a number gains its last digit on both sides in the same way, so the induction takes
digits off the end of the text.  A canonical text therefore belongs to one number and to nothing
else.
-/

namespace KeyCodec
namespace Hex

def smallDigits : List Char := "0123456789abcdef".toList

def capitalDigits : List Char := "0123456789ABCDEF".toList

def IsNumeral (c : Char) : Prop :=
  c ∈ smallDigits ∨ c ∈ capitalDigits

instance (c : Char) : Decidable (IsNumeral c) :=
  inferInstanceAs (Decidable (_ ∨ _))

def rank (c : Char) : Nat :=
  if c ∈ smallDigits then smallDigits.idxOf c else capitalDigits.idxOf c

/-- The positional value: a digit counts for its rank times a power of sixteen, the number of digits
behind it. -/
def positional : List Char → Nat
  | [] => 0
  | c :: rest => rank c * 16 ^ rest.length + positional rest

/-- A text of one or more digits. -/
def IsRun (text : List Char) : Prop :=
  text ≠ [] ∧ ∀ c ∈ text, IsNumeral c

/-- A lone zero, or a run of digits in small letters that does not start with a zero. -/
def IsCanonical (text : List Char) : Prop :=
  text = ['0'] ∨ text ≠ [] ∧ (∀ c ∈ text, c ∈ smallDigits) ∧ text.head? ≠ some '0'

/-! ### The digits one by one -/

theorem forall_mem_of_all {p : Char → Prop} [DecidablePred p] {cs : List Char}
    (h : cs.all (fun c => decide (p c)) = true) : ∀ c ∈ cs, p c :=
  fun c hc => of_decide_eq_true (List.all_eq_true.mp h c hc)

theorem isDigit_iff {c : Char} : isDigit c = true ↔ IsNumeral c := by
  constructor
  · intro h
    have hall : ∀ k < 103, isDigit (Char.ofNat k) = true →
        Char.ofNat k ∈ smallDigits ∨ Char.ofNat k ∈ capitalDigits := by decide
    have hle : c.toNat ≤ 102 := by
      simp only [isDigit, Bool.or_eq_true, Bool.and_eq_true, decide_eq_true_eq] at h
      rcases h with (⟨-, h⟩ | ⟨-, h⟩) | ⟨-, h⟩
      · exact Nat.le_trans (UInt32.le_iff_toNat_le.mp h) (by decide)
      · exact UInt32.le_iff_toNat_le.mp h
      · exact Nat.le_trans (UInt32.le_iff_toNat_le.mp h) (by decide)
    have hc := hall c.toNat (by omega)
    rw [Char.ofNat_toNat] at hc
    exact hc h
  · have hsmall : ∀ d ∈ smallDigits, isDigit d = true := forall_mem_of_all (by decide)
    have hcapital : ∀ d ∈ capitalDigits, isDigit d = true := forall_mem_of_all (by decide)
    rintro (h | h)
    · exact hsmall c h
    · exact hcapital c h

theorem isHex_iff {text : List Char} : isHex text = true ↔ IsRun text := by
  simp [isHex, IsRun, isDigit_iff]

theorem digitValue_eq_rank {c : Char} (h : IsNumeral c) : digitValue c = rank c := by
  have hsmall : ∀ d ∈ smallDigits, digitValue d = rank d := forall_mem_of_all (by decide)
  have hcapital : ∀ d ∈ capitalDigits, digitValue d = rank d := forall_mem_of_all (by decide)
  rcases h with h | h
  · exact hsmall c h
  · exact hcapital c h

theorem lowerDigit_mem_smallDigits {c : Char} (h : IsNumeral c) : lowerDigit c ∈ smallDigits := by
  have hsmall : ∀ d ∈ smallDigits, lowerDigit d ∈ smallDigits := forall_mem_of_all (by decide)
  have hcapital : ∀ d ∈ capitalDigits, lowerDigit d ∈ smallDigits := forall_mem_of_all (by decide)
  rcases h with h | h
  · exact hsmall c h
  · exact hcapital c h

theorem digitValue_lt {c : Char} (h : c ∈ smallDigits) : digitValue c < 16 := by
  have hall : ∀ d ∈ smallDigits, digitValue d < 16 := forall_mem_of_all (by decide)
  exact hall c h

theorem digit_digitValue {c : Char} (h : c ∈ smallDigits) : digit (digitValue c) = c := by
  have hall : ∀ d ∈ smallDigits, digit (digitValue d) = d := forall_mem_of_all (by decide)
  exact hall c h

theorem digitValue_pos {c : Char} (h : c ∈ smallDigits) (hzero : c ≠ '0') : 0 < digitValue c := by
  have hall : ∀ d ∈ smallDigits, d ≠ '0' → 0 < digitValue d := forall_mem_of_all (by decide)
  exact hall c h hzero

/-! ### The value of a run -/

theorem valueFrom_eq_positional {text : List Char} (h : ∀ c ∈ text, IsNumeral c) (start : Nat) :
    valueFrom start text = start * 16 ^ text.length + positional text := by
  induction text generalizing start with
  | nil => simp [positional]
  | cons c rest ih =>
      obtain ⟨hc, hrest⟩ := List.forall_mem_cons.mp h
      rw [valueFrom_cons, ih hrest, digitValue_eq_rank hc, positional, List.length_cons, pow_succ]
      ring

/-- What the reader adds up from the left is the positional value. -/
theorem value_eq_positional {text : List Char} (h : ∀ c ∈ text, IsNumeral c) :
    value text = positional text := by
  rw [value_eq_valueFrom, valueFrom_eq_positional h, Nat.zero_mul, Nat.zero_add]

theorem value_concat (text : List Char) (c : Char) :
    value (text ++ [c]) = 16 * value text + digitValue c := by
  simp [value]

/-! ### Writing what has been read -/

theorem digitsOnto_append (n : Nat) (tail more : List Char) :
    digitsOnto n (tail ++ more) = digitsOnto n tail ++ more := by
  fun_induction digitsOnto n tail with
  | case1 n tail h => rw [digitsOnto, if_pos h, List.cons_append]
  | case2 n tail h ih => rw [digitsOnto, if_neg h, ← List.cons_append, ih]

/-- A positive number and one more digit are written one behind the other. -/
theorem ofNat_concat {n d : Nat} (hn : 0 < n) (hd : d < 16) :
    ofNat (16 * n + d) = ofNat n ++ [digit d] := by
  have hlarge : ¬ 16 * n + d < 16 := by omega
  have hfront : (16 * n + d) / 16 = n := by omega
  have hlast : (16 * n + d) % 16 = d := by omega
  rw [ofNat, digitsOnto, if_neg hlarge, hfront, hlast, ofNat, ← digitsOnto_append,
    List.nil_append]

theorem ofNat_of_lt {d : Nat} (hd : d < 16) : ofNat d = [digit d] := by
  rw [ofNat, digitsOnto, if_pos hd]

theorem value_pos_of_head {c : Char} (hc : c ∈ smallDigits) (hzero : c ≠ '0') (rest : List Char) :
    0 < value (c :: rest) := by
  have hpos := digitValue_pos hc hzero
  induction rest using List.reverseRecOn with
  | nil => simpa [value] using hpos
  | append_singleton rest d ih =>
      rw [← List.cons_append, value_concat]
      omega

/-- Digits in small letters that do not start with a zero are written as they were read.  The last
digit is the one that the writer adds last, so digits come off the end. -/
theorem ofNat_value_cons {c : Char} (hc : c ∈ smallDigits) (hzero : c ≠ '0') {rest : List Char}
    (hrest : ∀ d ∈ rest, d ∈ smallDigits) : ofNat (value (c :: rest)) = c :: rest := by
  induction rest using List.reverseRecOn with
  | nil =>
      have hvalue : value [c] = digitValue c := by simp [value]
      rw [hvalue, ofNat_of_lt (digitValue_lt hc), digit_digitValue hc]
  | append_singleton rest d ih =>
      have hd : d ∈ smallDigits := hrest d (by simp)
      have hfront : ∀ e ∈ rest, e ∈ smallDigits := fun e he => hrest e (by simp [he])
      rw [← List.cons_append, value_concat,
        ofNat_concat (value_pos_of_head hc hzero rest) (digitValue_lt hd), ih hfront,
        digit_digitValue hd]

theorem ofNat_value_of_canonical {text : List Char} (h : IsCanonical text) :
    ofNat (value text) = text := by
  rcases h with rfl | ⟨hne, hsmall, hhead⟩
  · have hzero : (0 : Nat) < 16 := by decide
    exact ofNat_of_lt hzero
  · cases text with
    | nil => exact absurd rfl hne
    | cons c rest =>
        obtain ⟨hc, hrest⟩ := List.forall_mem_cons.mp hsmall
        exact ofNat_value_cons hc (by simpa using hhead) hrest

theorem isCanonical_normalize {text : List Char} (h : ∀ c ∈ text, IsNumeral c) :
    IsCanonical (normalize text) := by
  have hsmall : ∀ c ∈ text.map lowerDigit, c ∈ smallDigits := by
    intro c hc
    obtain ⟨d, hd, rfl⟩ := List.mem_map.mp hc
    exact lowerDigit_mem_smallDigits (h d hd)
  unfold normalize
  split
  · exact Or.inl rfl
  · next c rest hdrop =>
    refine Or.inr ⟨List.cons_ne_nil c rest, ?_, ?_⟩
    · intro d hd
      rw [← hdrop] at hd
      exact hsmall d ((List.dropWhile_sublist _).mem hd)
    · have hhead := List.head?_dropWhile_not (fun d => decide (d = '0')) (text.map lowerDigit)
      rw [hdrop] at hhead
      simpa using hhead

/-- Reading digits and writing their value leaves the digits in small letters, without leading
zeros. -/
theorem ofNat_value {text : List Char} (h : ∀ c ∈ text, IsNumeral c) :
    ofNat (value text) = normalize text := by
  rw [← value_normalize, ofNat_value_of_canonical (isCanonical_normalize h)]

/-- What is written for a number is canonical. -/
theorem isCanonical_ofNat (n : Nat) : IsCanonical (ofNat n) := by
  have hrun : IsRun (ofNat n) := isHex_iff.mp (isHex_ofNat n)
  have hcanonical := isCanonical_normalize hrun.2
  rwa [← ofNat_value hrun.2, value_ofNat] at hcanonical

end Hex

namespace HexText

open Hex

def IsDigitText (v : Value) : Prop :=
  ∃ s, v = .text s ∧ IsRun s.toList

/-- What is read is the positional value of a run of digits. -/
theorem decode_eq_ok_iff_positional {v : Value} {n : Nat} :
    decode v = .ok n ↔ ∃ s, v = .text s ∧ IsRun s.toList ∧ positional s.toList = n := by
  rw [decode_eq_ok_iff]
  constructor
  · rintro ⟨s, rfl, hhex, hvalue⟩
    have hrun := isHex_iff.mp hhex
    exact ⟨s, rfl, hrun, (value_eq_positional hrun.2).symm.trans hvalue⟩
  · rintro ⟨s, rfl, hrun, hvalue⟩
    exact ⟨s, rfl, isHex_iff.mpr hrun, (value_eq_positional hrun.2).trans hvalue⟩

theorem isDigitText_iff {v : Value} : IsDigitText v ↔ ∃ n, decode v = .ok n := by
  simp only [decode_eq_ok_iff_positional]
  constructor
  · rintro ⟨s, hv, hrun⟩
    exact ⟨_, s, hv, hrun, rfl⟩
  · rintro ⟨n, s, hv, hrun, -⟩
    exact ⟨s, hv, hrun⟩

theorem isValid_iff {v : Value} : isValid v = true ↔ IsDigitText v := by
  cases v with
  | text s => simp [isValid, IsDigitText, isHex_iff]
  | _ => simp [isValid, IsDigitText]

theorem cause_of_decode {v : Value} {why : Refusal} (h : decode v = .error why) :
    why.cause = none := by
  cases v with
  | text s =>
      simp only [decode] at h
      split at h
      · cases h
        rfl
      · split at h
        · cases h
        · cases h
          rfl
  | _ =>
      cases h
      rfl

/-- A value that is no digit text is handed back in a fault of its own class, without a cause. -/
theorem fault_of_not_isDigitText {v : Value} (h : ¬ IsDigitText v) :
    (decode v).mapError Refusal.fault =
      .error (.codec .hexParse { message := .text (Record.complaint v), data := v } none) := by
  cases hread : decode v with
  | ok n => exact absurd (isDigitText_iff.mpr ⟨n, hread⟩) h
  | error why =>
      obtain ⟨hmessage, hkind, hattributes⟩ := Record.attributes_of_decode hread
      rw [Outcome.mapError_error, Refusal.fault, Refusal.fault?, hmessage, Option.map_some,
        hkind, hattributes, cause_of_decode hread, Option.getD_some]

/-- Only a number that is not negative is written, and what is written are its digits. -/
theorem encode_eq_ok_iff {v : Value} {s : String} :
    encode v = .ok s ↔ ∃ n : Nat, v = .int n ∧ String.ofList (ofNat n) = s := by
  constructor
  · intro h
    cases v with
    | int i =>
        by_cases hneg : i < 0
        · simp [encode, hneg] at h
        · obtain ⟨n, rfl⟩ := Int.eq_ofNat_of_zero_le (Int.not_lt.mp hneg)
          rw [encode_natCast, Except.ok.injEq] at h
          exact ⟨n, rfl, h⟩
    | _ => simp [encode] at h
  · rintro ⟨n, rfl, rfl⟩
    exact encode_natCast n

/-- A canonical text is written for the number that it spells, and for no other value. -/
theorem encode_eq_ok_iff_of_canonical {s : String} (h : IsCanonical s.toList) (v : Value) :
    encode v = .ok s ↔ v = .int (value s.toList) := by
  rw [encode_eq_ok_iff]
  constructor
  · rintro ⟨n, rfl, rfl⟩
    rw [String.toList_ofList, value_ofNat]
  · rintro rfl
    exact ⟨value s.toList, rfl, by rw [ofNat_value_of_canonical h, String.ofList_toList]⟩

/-- Numbers and canonical texts belong to each other one by one.  A number is written canonically
and read back; a value is read exactly when it is a text of one or more digits, as their positional
value, and is otherwise handed back as the data of a parse fault; reading and writing takes a text
to its small letters without leading zeros; and a canonical text is written for one number only. -/
theorem encode_decode_bijective :
    (∀ n : Nat, ∃ s, encode (.int n) = .ok s ∧ IsCanonical s.toList ∧ decode (.text s) = .ok n) ∧
    (∀ v : Value,
      (∀ n, decode v = .ok n ↔ ∃ s, v = .text s ∧ IsRun s.toList ∧ positional s.toList = n) ∧
      (isValid v = true ↔ ∃ s, v = .text s ∧ IsRun s.toList) ∧
      ((¬ ∃ s, v = .text s ∧ IsRun s.toList) → ∃ message,
        (decode v).mapError Refusal.fault =
          .error (.codec .hexParse { message := .text message, data := v } none))) ∧
    (∀ (s : String) (n : Nat), decode (.text s) = .ok n →
      encode (.int n) = .ok (String.ofList (normalize s.toList))) ∧
    (∀ s : String, IsCanonical s.toList → ∃ n : Nat, ∀ v, encode v = .ok s ↔ v = .int n) := by
  refine ⟨?_, ?_, ?_, ?_⟩
  · intro n
    refine ⟨String.ofList (ofNat n), encode_natCast n, ?_, decode_ofNat n⟩
    rw [String.toList_ofList]
    exact isCanonical_ofNat n
  · intro v
    exact ⟨fun n => decode_eq_ok_iff_positional, isValid_iff,
      fun h => ⟨Record.complaint v, fault_of_not_isDigitText h⟩⟩
  · intro s n hread
    obtain ⟨hhex, rfl⟩ := decode_text_iff.mp hread
    rw [encode_natCast, ofNat_value (isHex_iff.mp hhex).2]
  · intro s hs
    exact ⟨value s.toList, encode_eq_ok_iff_of_canonical hs⟩

/-- Two capital letters behind zeros are read and written in small letters, a text with a mark in
front is handed back, and `ff` is written for one number only. -/
theorem encode_decode_bijective_of_texts :
    encode (.int 255) = .ok "ff" ∧
    (∃ message, (decode (.text "0x1")).mapError Refusal.fault =
      .error (.codec .hexParse { message := .text message, data := .text "0x1" } none)) ∧
    ∃ n : Nat, ∀ v, encode v = .ok "ff" ↔ v = .int n := by
  obtain ⟨-, hvalues, hnormal, hcanonical⟩ := encode_decode_bijective
  have hread : decode (.text "00FF") = .ok 255 := decode_text_iff.mpr ⟨by decide, by decide⟩
  have hcanon : Hex.IsCanonical "ff".toList :=
    Or.inr ⟨by decide, Hex.forall_mem_of_all (by decide), by decide⟩
  refine ⟨hnormal "00FF" 255 hread, ?_, hcanonical "ff" hcanon⟩
  apply (hvalues (.text "0x1")).2.2
  rw [← (hvalues (.text "0x1")).2.1]
  decide

end HexText
end KeyCodec
