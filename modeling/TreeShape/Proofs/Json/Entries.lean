import TreeShape.Json.Entries
/- Looking up keys in association lists, and lists whose keys increase: such a list is told by its
lookups alone. -/
namespace TreeShape

namespace Entries

variable {α : Type} {key : String}

theorem get?_append (first second : List (String × α)) :
    get? key (first ++ second) = (get? key first).or (get? key second) := by
  induction first with
  | nil => rfl
  | cons entry rest ih =>
      obtain ⟨k, v⟩ := entry
      rw [List.cons_append, get?, get?]
      split
      · rfl
      · exact ih

theorem get?_foldl_insert (entries sorted : List (String × α)) :
    get? key (entries.foldl (fun sorted entry => insert entry.1 entry.2 sorted) sorted) =
      (get? key entries.reverse).or (get? key sorted) := by
  induction entries generalizing sorted with
  | nil => rfl
  | cons entry rest ih =>
      obtain ⟨k, v⟩ := entry
      rw [List.foldl_cons, ih, List.reverse_cons, get?_append, Option.or_assoc]
      congr 1
      by_cases h : k = key
      · subst h
        simp [get?_insert_self, get?]
      · simp [get?_insert_of_ne (Ne.symm h), get?, h]

/-- The last entry with a key decides. -/
theorem get?_ofList (entries : List (String × α)) :
    get? key (ofList entries) = get? key entries.reverse := by
  rw [ofList, get?_foldl_insert]
  simp [get?]

theorem get?_reverse_eq_none {entries : List (String × α)} (h : get? key entries = none) :
    get? key entries.reverse = none := by
  induction entries with
  | nil => rfl
  | cons entry rest ih =>
      obtain ⟨k, v⟩ := entry
      rw [get?] at h
      split at h
      · cases h
      · rename_i hk
        rw [List.reverse_cons, get?_append, ih h]
        simp [get?, hk]

theorem get?_filter_eq_none {entries : List (String × α)} {p : String × α → Bool}
    (h : ∀ entry ∈ entries, entry.1 = key → p entry = false) :
    get? key (entries.filter p) = none := by
  induction entries with
  | nil => rfl
  | cons entry rest ih =>
      obtain ⟨k, v⟩ := entry
      rw [List.forall_mem_cons] at h
      rw [List.filter_cons]
      split
      · rename_i hp
        rw [get?, if_neg fun heq => by simp [h.1 heq] at hp]
        exact ih h.2
      · exact ih h.2

theorem get?_filter (p : String → Bool) (entries : List (String × α)) :
    get? key (entries.filter fun entry => p entry.1) = if p key then get? key entries else none := by
  induction entries with
  | nil => simp [get?]
  | cons entry rest ih =>
      obtain ⟨k, v⟩ := entry
      rw [List.filter_cons]
      by_cases hk : k = key
      · subst hk
        cases hp : p k <;> simp [hp, get?, ih]
      · cases hp : p k <;> simp [hk, get?, ih]

theorem mem_of_get? {entries : List (String × α)} {value : α} (h : get? key entries = some value) :
    (key, value) ∈ entries := by
  induction entries with
  | nil => cases h
  | cons entry rest ih =>
      obtain ⟨k, v⟩ := entry
      rw [get?] at h
      split at h
      · rename_i hk
        cases h
        rw [hk]
        exact List.mem_cons_self
      · exact List.mem_cons_of_mem _ (ih h)

theorem mem_keys_iff {entries : List (String × α)} : key ∈ keys entries ↔ get? key entries ≠ none := by
  induction entries with
  | nil => simp [keys, get?]
  | cons entry rest ih =>
      obtain ⟨k, v⟩ := entry
      by_cases hk : k = key
      · simp [keys, get?, hk]
      · rw [keys, List.map_cons, List.mem_cons, get?, if_neg hk, ← ih]
        simp [keys, Ne.symm hk]

theorem get?_ofList_eq_none_iff {entries : List (String × α)} :
    get? key (ofList entries) = none ↔ key ∉ keys entries := by
  have hreverse : key ∈ keys entries.reverse ↔ key ∈ keys entries := by
    rw [keys, keys, List.map_reverse, List.mem_reverse]
  rw [get?_ofList, ← hreverse, mem_keys_iff, ne_eq, Classical.not_not]

theorem mem_keys_insert {other : String} {value : α} {entries : List (String × α)} :
    other ∈ keys (insert key value entries) ↔ other = key ∨ other ∈ keys entries := by
  by_cases h : other = key
  · subst h
    simp [mem_keys_iff, get?_insert_self]
  · simp [mem_keys_iff, get?_insert_of_ne h, h]

instance (entries : List (String × α)) : Decidable (Sorted entries) :=
  inferInstanceAs (Decidable ((keys entries).Pairwise _))

theorem sorted_nil : Sorted ([] : List (String × α)) := List.Pairwise.nil

theorem sorted_cons_iff {value : α} {rest : List (String × α)} :
    Sorted ((key, value) :: rest) ↔ (∀ other ∈ keys rest, key < other) ∧ Sorted rest :=
  List.pairwise_cons

theorem Sorted.insert {value : α} {entries : List (String × α)} (h : Sorted entries) :
    Sorted (insert key value entries) := by
  induction entries with
  | nil => exact sorted_cons_iff.mpr ⟨by simp [keys], sorted_nil⟩
  | cons entry rest ih =>
      obtain ⟨k, v⟩ := entry
      obtain ⟨hless, hrest⟩ := sorted_cons_iff.mp h
      unfold Entries.insert
      split
      · rename_i heq
        subst heq
        exact sorted_cons_iff.mpr ⟨hless, hrest⟩
      · rename_i hne
        split
        · rename_i hlt
          refine sorted_cons_iff.mpr ⟨?_, h⟩
          intro other hother
          rcases List.mem_cons.mp hother with rfl | hother
          · exact hlt
          · exact String.lt_trans hlt (hless other hother)
        · rename_i hge
          refine sorted_cons_iff.mpr ⟨?_, ih hrest⟩
          intro other hother
          rcases mem_keys_insert.mp hother with rfl | hother
          · exact Std.lt_of_le_of_ne (String.not_lt.mp hge) (Ne.symm hne)
          · exact hless other hother

theorem sorted_ofList (entries : List (String × α)) : Sorted (ofList entries) := by
  have hfold : ∀ {sorted : List (String × α)}, Sorted sorted →
      Sorted (entries.foldl (fun sorted entry => insert entry.1 entry.2 sorted) sorted) := by
    induction entries with
    | nil => exact id
    | cons entry rest ih => exact fun h => ih h.insert
  exact hfold sorted_nil

theorem Sorted.filter {entries : List (String × α)} (h : Sorted entries) (p : String × α → Bool) :
    Sorted (entries.filter p) :=
  h.sublist (List.filter_sublist.map _)

theorem Sorted.get?_tail {value : α} {rest : List (String × α)} (h : Sorted ((key, value) :: rest)) :
    get? key rest = none := by
  apply Decidable.byContradiction
  intro hne
  exact String.lt_irrefl key ((sorted_cons_iff.mp h).1 key (mem_keys_iff.mpr hne))

/-- Each key is there once, so the entry with a key is the one that is found. -/
theorem Sorted.get?_eq_some_iff {entries : List (String × α)} {value : α} (h : Sorted entries) :
    get? key entries = some value ↔ (key, value) ∈ entries := by
  refine ⟨mem_of_get?, fun hmem => ?_⟩
  induction entries with
  | nil => cases hmem
  | cons entry rest ih =>
      obtain ⟨k, v⟩ := entry
      obtain ⟨hless, hrest⟩ := sorted_cons_iff.mp h
      rcases List.mem_cons.mp hmem with heq | hlater
      · cases heq
        rw [get?, if_pos rfl]
      · have hne : k ≠ key := String.ne_of_lt (hless key (List.mem_map_of_mem hlater))
        rw [get?, if_neg hne]
        exact ih hrest hlater

theorem Sorted.get?_reverse {entries : List (String × α)} (h : Sorted entries) :
    get? key entries.reverse = get? key entries := by
  induction entries with
  | nil => rfl
  | cons entry rest ih =>
      obtain ⟨k, v⟩ := entry
      rw [List.reverse_cons, get?_append, ih (sorted_cons_iff.mp h).2]
      by_cases hk : k = key
      · subst hk
        simp [get?, h.get?_tail]
      · simp [get?, hk]

/-- Sorted lists with the same lookups are the same. -/
theorem Sorted.ext {first second : List (String × α)} (h : Sorted first) (h' : Sorted second)
    (hsame : ∀ key, get? key first = get? key second) : first = second := by
  induction first generalizing second with
  | nil =>
      cases second with
      | nil => rfl
      | cons entry rest =>
          have hnone := hsame entry.1
          simp [get?] at hnone
  | cons entry rest ih =>
      obtain ⟨k, v⟩ := entry
      cases second with
      | nil =>
          have hnone := hsame k
          simp [get?] at hnone
      | cons entry' rest' =>
          obtain ⟨k', v'⟩ := entry'
          have hmem : ∀ key, key ∈ keys ((k, v) :: rest) ↔ key ∈ keys ((k', v') :: rest') := by
            intro key
            rw [mem_keys_iff, mem_keys_iff, hsame]
          -- Each first key is among the keys of the other list, so neither comes before the other.
          have hkey : k = k' := by
            rcases List.mem_cons.mp ((hmem k).mp List.mem_cons_self) with heq | hlater
            · exact heq
            · rcases List.mem_cons.mp ((hmem k').mpr List.mem_cons_self) with heq | hlater'
              · exact heq.symm
              · exact absurd ((sorted_cons_iff.mp h).1 k' hlater')
                  (String.lt_asymm ((sorted_cons_iff.mp h').1 k hlater))
          subst hkey
          have hvalue : v = v' := by
            have hfirst := hsame k
            simpa [get?] using hfirst
          subst hvalue
          congr 1
          refine ih (sorted_cons_iff.mp h).2 (sorted_cons_iff.mp h').2 fun key => ?_
          by_cases hk : k = key
          · subst hk
            rw [h.get?_tail, h'.get?_tail]
          · have hlater := hsame key
            simpa [get?, hk] using hlater

end Entries

end TreeShape
