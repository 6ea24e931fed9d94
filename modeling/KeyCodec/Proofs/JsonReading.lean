import KeyCodec.Json.Reader
import KeyCodec.Json.Writer
import KeyCodec.Proofs.Tables

/-!
# JSON text is read back

What is written for a tree of texts, arrays and objects is read as that tree.  A written text ends
at its closing quote, and the other trees at a bracket of their own, so whatever follows is left:
the statements are about a written tree with more text behind it.
-/

namespace KeyCodec
namespace Json

/-! ### Texts -/

theorem control_escape : ∀ n < 32, (Hex.padLeft 4 (Hex.ofNat n)).length = 4 ∧
    Hex.toNat? (Hex.padLeft 4 (Hex.ofNat n)) = some n := by
  decide +kernel

theorem exists_digits_of_control {c : Char} (h : c < ' ') :
    ∃ a b d e, Hex.padLeft 4 (Hex.ofNat c.toNat) = [a, b, d, e] ∧
      codeUnit? a b d e = some c.toNat := by
  have hlt : c.toNat < 32 := h
  obtain ⟨hlength, hread⟩ := control_escape c.toNat hlt
  generalize Hex.padLeft 4 (Hex.ofNat c.toNat) = digits at hlength hread
  match digits, hlength with
  | [a, b, d, e], _ => exact ⟨a, b, d, e, rfl, hread⟩

/-- A character that starts no escape ends the text, is refused, or is kept. -/
theorem readText_cons {c : Char} (h : c ≠ '\\') (done rest : List Char) :
    readText none done (c :: rest) =
      if c = '"' then some (String.ofList done.reverse, rest)
      else if c < ' ' then none else readText none (c :: done) rest := by
  rw [readText.eq_def]
  split
  · next heq => cases heq
  · next heq =>
    cases heq
    exact absurd rfl h
  · next heq =>
    cases heq
    simp [h]

theorem readText_escape (c : Char) (done rest : List Char) :
    readText none done (escape c ++ rest) = readText none (c :: done) rest := by
  unfold escape
  split
  · next h => simp [h, readText, escaped?]
  split
  · next h => simp [h, readText, escaped?]
  split
  · next h => simp [h, readText, escaped?]
  split
  · next h => simp [h, readText, escaped?]
  split
  · next h => simp [h, readText, escaped?]
  split
  · next h => simp [h, readText, escaped?]
  split
  · next h => simp [h, readText, escaped?]
  split
  · next h =>
    obtain ⟨a, b, d, e, hdigits, hread⟩ := exists_digits_of_control h
    have hchar : unitChar? c.toNat = some c := by
      have hlt : c.toNat < 32 := h
      rw [unitChar?, if_neg (by omega), Char.ofNat_toNat]
    simp [hdigits, readText, hread, hchar]
  · next hquote hslash _ _ _ _ _ hcontrol =>
    rw [List.cons_append, List.nil_append, readText_cons hslash, if_neg hquote, if_neg hcontrol]

/-- A written text is read to its closing quote. -/
theorem readText_flatMap_escape (cs done rest : List Char) :
    readText none done (cs.flatMap escape ++ '"' :: rest) =
      some (String.ofList (done.reverse ++ cs), rest) := by
  induction cs generalizing done with
  | nil =>
      rw [List.flatMap_nil, List.nil_append, readText_cons (by decide), if_pos rfl,
        List.append_nil]
  | cons c cs ih =>
      rw [List.flatMap_cons, List.append_assoc, readText_escape, ih]
      simp

/-! ### Containers -/

theorem skipBlank_cons {c : Char} (h : isBlank c = false) (rest : List Char) :
    skipBlank (c :: rest) = c :: rest := by
  simp [skipBlank, h]

/-- A tree that is read back by a reader, whatever follows it, and does not look like the end of a
container. -/
structure IsReadBy (next : Reader) (j : Json) : Prop where
  start : ∃ c rest, writeTree j = c :: rest ∧ isBlank c = false ∧ c ≠ ']'
  read : ∀ rest, next (writeTree j ++ rest) = some (j, rest)

theorem writeItems_cons_cons (j k : Json) (items : List Json) :
    writeItems (j :: k :: items) = writeTree j ++ ',' :: writeItems (k :: items) := rfl

theorem writeMembers_cons_cons (name : String) (j : Json) (other : String × Json)
    (members : List (String × Json)) :
    writeMembers ((name, j) :: other :: members) =
      writeText name ++ ':' :: writeTree j ++ ',' :: writeMembers (other :: members) := rfl

theorem length_le_length_writeItems (items : List Json) :
    items.length ≤ (writeItems items).length + 1 := by
  induction items with
  | nil => simp
  | cons j items ih =>
      cases items with
      | nil => simp
      | cons k items =>
          simp only [writeItems, List.length_append, List.length_cons] at ih ⊢
          omega

theorem length_le_length_writeMembers (members : List (String × Json)) :
    members.length ≤ (writeMembers members).length + 1 := by
  induction members with
  | nil => simp
  | cons member members ih =>
      obtain ⟨name, j⟩ := member
      cases members with
      | nil => simp
      | cons other members =>
          simp only [writeMembers, List.length_append, List.length_cons] at ih ⊢
          omega

theorem readItems_of_bracket {next : Reader} {cs rest : List Char} {j : Json}
    (h : next cs = some (j, ']' :: rest)) (bound : Nat) :
    readItems next (bound + 1) cs = some ([j], rest) := by
  have hblank : skipBlank (']' :: rest) = ']' :: rest := rfl
  simp only [readItems, h, Option.bind_eq_bind, Option.bind_some, hblank]

theorem readItems_of_comma {next : Reader} {cs rest left : List Char} {j : Json}
    {items : List Json} {bound : Nat} (h : next cs = some (j, ',' :: rest))
    (hitems : readItems next bound rest = some (items, left)) :
    readItems next (bound + 1) cs = some (j :: items, left) := by
  have hblank : skipBlank (',' :: rest) = ',' :: rest := rfl
  simp only [readItems, h, Option.bind_eq_bind, Option.bind_some, hblank, hitems]

theorem readItems_writeItems {next : Reader} {items : List Json} (hne : items ≠ [])
    (h : ∀ j ∈ items, IsReadBy next j) {bound : Nat} (hbound : items.length ≤ bound)
    (rest : List Char) :
    readItems next bound (writeItems items ++ ']' :: rest) = some (items, rest) := by
  induction items generalizing bound with
  | nil => exact absurd rfl hne
  | cons j items ih =>
      obtain ⟨hj, hitems⟩ := List.forall_mem_cons.mp h
      cases bound with
      | zero => cases hbound
      | succ bound =>
          cases items with
          | nil => exact readItems_of_bracket (hj.read _) bound
          | cons k items =>
              have htail := ih (List.cons_ne_nil _ _) hitems (Nat.le_of_succ_le_succ hbound)
              rw [writeItems_cons_cons, List.append_assoc, List.cons_append]
              exact readItems_of_comma (hj.read _) htail

/-- The name of a member is read, and then the tree behind the colon. -/
theorem readMembers_writeText {next : Reader} {bound : Nat} (name : String) (cs : List Char) :
    readMembers next (bound + 1) (writeText name ++ ':' :: cs) =
      (next cs).bind fun (j, rest) =>
        match skipBlank rest with
        | ',' :: rest =>
          (readMembers next bound rest).bind fun (members, rest) =>
            some ((name, j) :: members, rest)
        | '}' :: rest => some ([(name, j)], rest)
        | _ => none := by
  have hname := readText_flatMap_escape name.toList [] (':' :: cs)
  rw [List.reverse_nil, List.nil_append, String.ofList_toList] at hname
  have hquote : skipBlank (writeText name ++ ':' :: cs) =
      '"' :: (name.toList.flatMap escape ++ '"' :: ':' :: cs) := by
    rw [writeText, List.append_assoc]
    rfl
  rewrite [readMembers, hquote]
  change (readText none [] (name.toList.flatMap escape ++ '"' :: ':' :: cs)).bind _ = _
  rewrite [hname]
  rfl

theorem readMembers_writeMembers {next : Reader} {members : List (String × Json)}
    (hne : members ≠ []) (h : ∀ member ∈ members, IsReadBy next member.2) {bound : Nat}
    (hbound : members.length ≤ bound) (rest : List Char) :
    readMembers next bound (writeMembers members ++ '}' :: rest) = some (members, rest) := by
  induction members generalizing bound with
  | nil => exact absurd rfl hne
  | cons member members ih =>
      obtain ⟨name, j⟩ := member
      obtain ⟨hj, hmembers⟩ := List.forall_mem_cons.mp h
      cases bound with
      | zero => cases hbound
      | succ bound =>
          cases members with
          | nil =>
              have hbrace : skipBlank ('}' :: rest) = '}' :: rest := rfl
              have hwritten : writeMembers [(name, j)] ++ '}' :: rest =
                  writeText name ++ ':' :: (writeTree j ++ '}' :: rest) := by
                simp [writeMembers]
              simp only [hwritten, readMembers_writeText, hj.read, Option.bind_some, hbrace]
          | cons other members =>
              have htail := ih (List.cons_ne_nil _ _) hmembers (Nat.le_of_succ_le_succ hbound)
              have hcomma : ∀ cs, skipBlank (',' :: cs) = ',' :: cs := fun _ => rfl
              have hwritten : writeMembers ((name, j) :: other :: members) ++ '}' :: rest =
                  writeText name ++ ':' :: (writeTree j ++
                    ',' :: (writeMembers (other :: members) ++ '}' :: rest)) := by
                simp [writeMembers_cons_cons]
              simp only [hwritten, readMembers_writeText, hj.read, Option.bind_some, hcomma, htail]

/-! ### Levels -/

theorem readLevel_text (next? : Option Reader) (s : String) (rest : List Char) :
    readLevel next? (writeText s ++ rest) = some (.text s, rest) := by
  have hread := readText_flatMap_escape s.toList [] rest
  rw [List.reverse_nil, List.nil_append, String.ofList_toList] at hread
  have hquote : skipBlank (writeText s ++ rest) =
      '"' :: (s.toList.flatMap escape ++ '"' :: rest) := by
    rw [writeText, List.append_assoc]
    rfl
  simp only [readLevel, hquote, hread, Option.bind_eq_bind, Option.bind_some]

theorem readLevel_null (next? : Option Reader) (rest : List Char) :
    readLevel next? (writeTree .null ++ rest) = some (.null, rest) := by
  rfl

theorem exists_head_writeItems {next : Reader} {items : List Json} (hne : items ≠ [])
    (h : ∀ j ∈ items, IsReadBy next j) :
    ∃ c rest, writeItems items = c :: rest ∧ isBlank c = false ∧ c ≠ ']' := by
  cases items with
  | nil => exact absurd rfl hne
  | cons j items =>
      obtain ⟨c, rest, hwritten, hc⟩ := (h j List.mem_cons_self).start
      cases items with
      | nil => exact ⟨c, rest, hwritten, hc⟩
      | cons k items =>
          refine ⟨c, rest ++ ',' :: writeItems (k :: items), ?_, hc⟩
          rw [writeItems_cons_cons, hwritten, List.cons_append]

theorem readLevel_array {next : Reader} {items : List Json} (h : ∀ j ∈ items, IsReadBy next j)
    (rest : List Char) :
    readLevel (some next) (writeTree (.array items) ++ rest) = some (.array items, rest) := by
  by_cases hne : items = []
  · subst hne
    rfl
  · obtain ⟨c, cs, hhead, hblank, hbracket⟩ := exists_head_writeItems hne h
    have hopen : skipBlank (writeTree (.array items) ++ rest) =
        '[' :: (writeItems items ++ ']' :: rest) := by
      rw [writeTree, List.append_assoc]
      rfl
    have hinside : skipBlank (writeItems items ++ ']' :: rest) =
        writeItems items ++ ']' :: rest := by
      rw [hhead]
      exact skipBlank_cons hblank _
    have hbound : items.length ≤ (writeItems items ++ ']' :: rest).length := by
      have hle := length_le_length_writeItems items
      rw [List.length_append, List.length_cons]
      omega
    have hread := readItems_writeItems hne h hbound rest
    simp only [readLevel, hopen, hinside]
    split
    · next heq =>
      rw [hhead] at heq
      cases heq
      exact absurd rfl hbracket
    · simp only [hread, Option.bind_eq_bind, Option.bind_some]

theorem readLevel_object {next : Reader} {members : List (String × Json)}
    (h : ∀ member ∈ members, IsReadBy next member.2) (rest : List Char) :
    readLevel (some next) (writeTree (.object members) ++ rest) =
      some (.object members, rest) := by
  by_cases hne : members = []
  · subst hne
    rfl
  · have hopen : skipBlank (writeTree (.object members) ++ rest) =
        '{' :: (writeMembers members ++ '}' :: rest) := by
      rw [writeTree, List.append_assoc]
      rfl
    have hhead : ∃ cs, writeMembers members ++ '}' :: rest = '"' :: cs := by
      match members, hne with
      | [(name, j)], _ => exact ⟨_, rfl⟩
      | (name, j) :: other :: more, _ => exact ⟨_, rfl⟩
    obtain ⟨cs, hhead⟩ := hhead
    have hinside : skipBlank (writeMembers members ++ '}' :: rest) =
        writeMembers members ++ '}' :: rest := by
      rw [hhead]
      rfl
    have hbound : members.length ≤ (writeMembers members ++ '}' :: rest).length := by
      have hle := length_le_length_writeMembers members
      rw [List.length_append, List.length_cons]
      omega
    have hread := readMembers_writeMembers hne h hbound rest
    simp only [readLevel, hopen, hinside]
    split
    · next heq =>
      rw [hhead] at heq
      cases heq
    · simp only [hread, Option.bind_eq_bind, Option.bind_some]

end Json

/-! ### Values that JSON text holds -/

/-- Nothing, texts, and lists and tables of these nested at most so deep; the keys of a table are
distinct texts. -/
inductive Value.IsTree : Nat → Value → Prop
  | null (depth : Nat) : IsTree depth .null
  | text (depth : Nat) (s : String) : IsTree depth (.text s)
  | list {depth : Nat} {vs : List Value} (h : ∀ v ∈ vs, IsTree depth v) :
      IsTree (depth + 1) (.list vs)
  | table {depth : Nat} {entries : List (Value × Value)} (names : List String)
      (hkeys : entries.map Prod.fst = names.map .text) (hnames : names.Nodup)
      (h : ∀ entry ∈ entries, IsTree depth entry.2) : IsTree (depth + 1) (.table entries)

namespace Json

theorem toValues_ofValues {vs : List Value} (h : ∀ v ∈ vs, (ofValue v).toValue = v) :
    toValues (ofValues vs) = vs := by
  induction vs with
  | nil => rfl
  | cons v vs ih =>
      obtain ⟨hv, hvs⟩ := List.forall_mem_cons.mp h
      rw [ofValues, toValues, hv, ih hvs]

theorem toEntries_ofEntries {entries : List (Value × Value)} {names : List String}
    (hkeys : entries.map Prod.fst = names.map .text)
    (h : ∀ entry ∈ entries, (ofValue entry.2).toValue = entry.2) :
    toEntries (ofEntries entries) = entries := by
  induction entries generalizing names with
  | nil => rfl
  | cons entry entries ih =>
      obtain ⟨k, v⟩ := entry
      obtain ⟨hv, hentries⟩ := List.forall_mem_cons.mp h
      cases names with
      | nil => cases hkeys
      | cons name names =>
          rw [List.map_cons, List.map_cons, List.cons.injEq] at hkeys
          obtain ⟨rfl, hkeys⟩ := hkeys
          rw [ofEntries, toEntries, hv, ih hkeys hentries]
          rfl

/-- Writing a value as a tree loses nothing of it. -/
theorem toValue_ofValue {depth : Nat} {v : Value} (h : v.IsTree depth) :
    (ofValue v).toValue = v := by
  induction h with
  | null => rfl
  | text => rfl
  | list _ ih => rw [ofValue, toValue, toValues_ofValues ih]
  | table names hkeys hnames _ ih =>
      rw [ofValue, toValue, toEntries_ofEntries hkeys ih]
      exact Value.tableOf_of_distinctKeys (Value.distinctKeys_of_texts hkeys hnames)

theorem ofValues_eq_map (vs : List Value) : ofValues vs = vs.map ofValue := by
  induction vs with
  | nil => rfl
  | cons v vs ih => rw [ofValues, ih, List.map_cons]

theorem ofEntries_eq_map (entries : List (Value × Value)) :
    ofEntries entries = entries.map fun entry => (nameOf entry.1, ofValue entry.2) := by
  induction entries with
  | nil => rfl
  | cons entry entries ih => rw [ofEntries, ih, List.map_cons]

/-- The written tree of a value is read at the depth of its nesting. -/
theorem isReadBy_readTree {depth : Nat} {v : Value} (h : v.IsTree depth) :
    IsReadBy (readTree depth) (ofValue v) := by
  induction h with
  | null depth =>
      refine ⟨⟨'n', _, rfl, rfl, by decide⟩, fun rest => ?_⟩
      cases depth with
      | zero => exact readLevel_null none rest
      | succ depth => exact readLevel_null (some (readTree depth)) rest
  | text depth s =>
      refine ⟨⟨'"', _, rfl, rfl, by decide⟩, fun rest => ?_⟩
      cases depth with
      | zero => exact readLevel_text none s rest
      | succ depth => exact readLevel_text (some (readTree depth)) s rest
  | list _ ih =>
      refine ⟨⟨'[', _, rfl, rfl, by decide⟩, readLevel_array ?_⟩
      rw [ofValues_eq_map, List.forall_mem_map]
      exact ih
  | table names _ _ _ ih =>
      refine ⟨⟨'{', _, rfl, rfl, by decide⟩, readLevel_object ?_⟩
      rw [ofEntries_eq_map, List.forall_mem_map]
      exact ih

/-- The text of a value is parsed to its tree, if the value is not nested too deep. -/
theorem parse?_write {v : Value} (h : v.IsTree nestingLimit) :
    parse? (ofValue v).write = some (ofValue v) := by
  have hread := (isReadBy_readTree h).read []
  rw [List.append_nil] at hread
  rw [parse?, parseWithin, write, String.toList_ofList, hread]
  rfl

end Json
end KeyCodec
