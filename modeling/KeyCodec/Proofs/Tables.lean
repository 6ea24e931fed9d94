import KeyCodec.Value.Equality

/-!
# Tables with distinct keys

Putting entries into a table one by one keeps them as they are when no two of their keys are equal.
-/

namespace KeyCodec
namespace Value

def DistinctKeys (entries : List (Value × Value)) : Prop :=
  entries.Pairwise fun a b => same a.1 b.1 = false

theorem insert_of_not_same {entries : List (Value × Value)} {k : Value}
    (h : ∀ entry ∈ entries, same entry.1 k = false) (v : Value) :
    insert entries k v = entries ++ [(k, v)] := by
  induction entries with
  | nil => rfl
  | cons entry rest ih =>
      obtain ⟨hentry, hrest⟩ := List.forall_mem_cons.mp h
      rw [insert, if_neg (by simp [hentry]), ih hrest, List.cons_append]

/-- Entries with distinct keys are put in one behind the other.  What has been put in grows by one
entry, which is distinct from all before it. -/
theorem foldl_insert_of_distinctKeys {entries table : List (Value × Value)}
    (h : DistinctKeys (table ++ entries)) :
    entries.foldl (fun t (k, v) => insert t k v) table = table ++ entries := by
  induction entries generalizing table with
  | nil => exact (List.append_nil table).symm
  | cons entry rest ih =>
      obtain ⟨k, v⟩ := entry
      obtain ⟨-, -, hbefore⟩ := List.pairwise_append.mp h
      have hentry : insert table k v = table ++ [(k, v)] :=
        insert_of_not_same (fun other hother => hbefore other hother (k, v) List.mem_cons_self) v
      have hmove : table ++ (k, v) :: rest = (table ++ [(k, v)]) ++ rest := by simp
      change rest.foldl _ (insert table k v) = _
      rw [hentry, hmove]
      exact ih (hmove ▸ h)

theorem tableOf_of_distinctKeys {entries : List (Value × Value)} (h : DistinctKeys entries) :
    tableOf entries = .table entries := by
  have hfold := foldl_insert_of_distinctKeys (List.nil_append entries ▸ h)
  rw [tableOf, hfold, List.nil_append]

@[simp] theorem same_text (s t : String) : same (.text s) (.text t) = (s == t) := rfl

theorem distinctKeys_of_texts {entries : List (Value × Value)} {names : List String}
    (hkeys : entries.map Prod.fst = names.map .text) (h : names.Nodup) : DistinctKeys entries := by
  have hpairs : (entries.map Prod.fst).Pairwise fun k l => same k l = false := by
    rw [hkeys, List.pairwise_map]
    exact h.imp fun hne => beq_eq_false_iff_ne.mpr hne
  rwa [List.pairwise_map] at hpairs

theorem distinctKeys_zip_texts {names : List String} (h : names.Nodup) (vs : List Value) :
    DistinctKeys ((names.map .text).zip vs) := by
  induction names generalizing vs with
  | nil => exact .nil
  | cons name names ih =>
      obtain ⟨hname, hnames⟩ := List.nodup_cons.mp h
      cases vs with
      | nil => exact .nil
      | cons v vs =>
          refine .cons ?_ (ih hnames vs)
          intro entry hentry
          obtain ⟨other, hother, hkey⟩ := List.mem_map.mp (List.of_mem_zip hentry).1
          rw [← hkey, same_text, beq_eq_false_iff_ne]
          rintro rfl
          exact hname hother

theorem forall_insert {P : Value → Prop} {entries : List (Value × Value)}
    (h : ∀ entry ∈ entries, P entry.2) {v : Value} (hv : P v) (k : Value) :
    ∀ entry ∈ insert entries k v, P entry.2 := by
  induction entries with
  | nil =>
      rw [insert, List.forall_mem_singleton]
      exact hv
  | cons entry rest ih =>
      obtain ⟨hentry, hrest⟩ := List.forall_mem_cons.mp h
      rw [insert]
      split
      · exact List.forall_mem_cons.mpr ⟨hv, hrest⟩
      · exact List.forall_mem_cons.mpr ⟨hentry, ih hrest⟩

theorem keys_insert_text {entries : List (Value × Value)} {names : List String}
    (h : entries.map Prod.fst = names.map .text) (name : String) (v : Value) :
    (insert entries (.text name) v).map Prod.fst =
      (if name ∈ names then names else names ++ [name]).map .text := by
  induction entries generalizing names with
  | nil =>
      obtain rfl := List.map_eq_nil_iff.mp h.symm
      rfl
  | cons entry rest ih =>
      obtain ⟨k, w⟩ := entry
      cases names with
      | nil => cases h
      | cons first names =>
          rw [List.map_cons, List.map_cons, List.cons.injEq] at h
          obtain ⟨rfl, hrest⟩ := h
          by_cases hfirst : first = name
          · simp [insert, hfirst, hrest]
          · rw [insert, same_text, if_neg (by simpa using hfirst), List.map_cons, ih hrest]
            by_cases hmem : name ∈ names <;> simp [hmem, Ne.symm hfirst]

/-- Entries under texts are put into a table whose keys are distinct texts.  The table is built by a
fold, so the induction is on the entries with the table left open. -/
theorem exists_tableOf_of_texts {P : Value → Prop} {entries : List (Value × Value)}
    (hkeys : ∀ entry ∈ entries, ∃ name, entry.1 = .text name)
    (h : ∀ entry ∈ entries, P entry.2) :
    ∃ (names : List String) (table : List (Value × Value)), tableOf entries = .table table ∧
      table.map Prod.fst = names.map .text ∧ names.Nodup ∧ ∀ entry ∈ table, P entry.2 := by
  suffices hfold : ∀ (names : List String) (table : List (Value × Value)),
      table.map Prod.fst = names.map .text → names.Nodup → (∀ entry ∈ table, P entry.2) →
      ∃ others : List String,
        (entries.foldl (fun t (k, v) => insert t k v) table).map Prod.fst = others.map .text ∧
          others.Nodup ∧ ∀ entry ∈ entries.foldl (fun t (k, v) => insert t k v) table, P entry.2 by
    obtain ⟨names, hresult⟩ := hfold [] [] rfl .nil (by simp)
    exact ⟨names, _, rfl, hresult⟩
  induction entries with
  | nil => exact fun names table htable hnames hvalues => ⟨names, htable, hnames, hvalues⟩
  | cons entry rest ih =>
      intro names table htable hnames hvalues
      obtain ⟨k, v⟩ := entry
      obtain ⟨⟨name, hname⟩, htexts⟩ := List.forall_mem_cons.mp hkeys
      obtain ⟨hentry, hrest⟩ := List.forall_mem_cons.mp h
      obtain rfl : k = .text name := hname
      apply ih htexts hrest _ _ (keys_insert_text htable name v)
      · by_cases hmem : name ∈ names
        · rwa [if_pos hmem]
        · rw [if_neg hmem]
          refine List.nodup_append.mpr ⟨hnames, by simp, ?_⟩
          intro other hother last hlast
          rw [List.mem_singleton.mp hlast]
          rintro rfl
          exact hmem hother
      · exact forall_insert hvalues hentry _

end Value
end KeyCodec
