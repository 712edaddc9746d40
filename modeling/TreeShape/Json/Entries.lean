/- Association lists whose keys are kept in increasing order, each key once. -/
namespace TreeShape

namespace Entries

variable {α : Type}

/-- The value of the first entry with the key. -/
def get? (key : String) : List (String × α) → Option α
  | [] => none
  | (k, v) :: rest => if k = key then some v else get? key rest

def contains (key : String) (entries : List (String × α)) : Bool := (get? key entries).isSome

/-- Sets the value of a key, in the key's place in the order. -/
def insert (key : String) (value : α) : List (String × α) → List (String × α)
  | [] => [(key, value)]
  | (k, v) :: rest =>
    if key = k then (key, value) :: rest
    else if key < k then (key, value) :: (k, v) :: rest
    else (k, v) :: insert key value rest

/-- Drops every entry with the key. -/
def erase (key : String) (entries : List (String × α)) : List (String × α) :=
  entries.filter fun entry => entry.1 != key

def keys (entries : List (String × α)) : List String := entries.map (·.1)

/-- Inserts the entries one after the other, so that the last value of a key is kept. -/
def ofList (entries : List (String × α)) : List (String × α) :=
  entries.foldl (fun sorted entry => insert entry.1 entry.2 sorted) []

/-- Keys strictly increase. -/
def Sorted (entries : List (String × α)) : Prop := (keys entries).Pairwise (· < ·)

theorem get?_insert_self (key : String) (value : α) (entries : List (String × α)) :
    get? key (insert key value entries) = some value := by
  induction entries with
  | nil => simp [insert, get?]
  | cons entry rest ih =>
    obtain ⟨k, v⟩ := entry
    unfold insert
    split
    · simp [get?]
    · split
      · simp [get?]
      · rename_i hne _
        simpa [get?, Ne.symm hne] using ih

theorem get?_insert_of_ne {key other : String} (h : other ≠ key) (value : α)
    (entries : List (String × α)) :
    get? other (insert key value entries) = get? other entries := by
  induction entries with
  | nil => simp [insert, get?, Ne.symm h]
  | cons entry rest ih =>
    obtain ⟨k, v⟩ := entry
    unfold insert
    split
    · rename_i heq
      subst heq
      simp [get?, Ne.symm h]
    · split
      · simp [get?, Ne.symm h]
      · simp only [get?, ih]

theorem get?_erase_self (key : String) (entries : List (String × α)) :
    get? key (erase key entries) = none := by
  induction entries with
  | nil => rfl
  | cons entry rest ih =>
    obtain ⟨k, v⟩ := entry
    unfold erase at ih ⊢
    by_cases h : k = key
    · simpa [List.filter_cons, h] using ih
    · simpa [List.filter_cons, h, get?] using ih

theorem get?_erase_of_ne {key other : String} (h : other ≠ key) (entries : List (String × α)) :
    get? other (erase key entries) = get? other entries := by
  induction entries with
  | nil => rfl
  | cons entry rest ih =>
    obtain ⟨k, v⟩ := entry
    unfold erase at ih ⊢
    by_cases hk : k = key
    · subst hk
      simpa [List.filter_cons, get?, Ne.symm h] using ih
    · by_cases ho : k = other <;> simp_all [get?]

end Entries

end TreeShape
