/-
**Dictionaries: values by name, in the order of the names.**

A dictionary lists its entries by increasing name, so two dictionaries with the same content are
equal and are written alike. `insert` replaces the value of a name that is present already.
-/

namespace Schemata

/-- Values by name. -/
abbrev Dictionary (α : Type) := List (String × α)

namespace Dictionary

variable {α : Type}

/-- Put a value under a name, in the place of an earlier one if there is one. -/
def insert (name : String) (value : α) : Dictionary α → Dictionary α
  | [] => [(name, value)]
  | (other, held) :: rest =>
    match compare name other with
    | .lt => (name, value) :: (other, held) :: rest
    | .eq => (name, value) :: rest
    | .gt => (other, held) :: insert name value rest

/-- The value under a name. -/
def find? (name : String) : Dictionary α → Option α
  | [] => none
  | (other, held) :: rest => if name = other then some held else find? name rest

/-- The dictionary of a list of entries; the last entry of a name wins. -/
def ofEntries (entries : List (String × α)) : Dictionary α :=
  entries.foldl (fun dictionary entry => dictionary.insert entry.1 entry.2) []

/-- A name that is put in is found, and the others are found as before. -/
theorem find?_insert (name other : String) (value : α) (dictionary : Dictionary α) :
    find? other (insert name value dictionary) =
      if other = name then some value else find? other dictionary := by
  induction dictionary with
  | nil => rfl
  | cons entry rest ih =>
      obtain ⟨present, held⟩ := entry
      rw [insert]
      split
      · rfl
      · rename_i same
        cases Std.LawfulEqCmp.eq_of_compare same
        simp only [find?]
        split <;> rfl
      · rename_i above
        have differ : name ≠ present := by
          rintro rfl
          simp at above
        simp only [find?, ih]
        grind

/-- The value under a name is one of the entries. -/
theorem mem_of_find? {name : String} {value : α} {dictionary : Dictionary α}
    (found : find? name dictionary = some value) : (name, value) ∈ dictionary := by
  induction dictionary with
  | nil => cases found
  | cons entry rest ih =>
      rw [find?] at found
      split at found
      · rename_i same
        cases found
        exact same ▸ List.mem_cons_self
      · exact List.mem_cons_of_mem _ (ih found)

/-- The entries after a value is put in are that one and earlier ones. -/
theorem mem_insert {name : String} {value : α} {dictionary : Dictionary α} {entry : String × α}
    (member : entry ∈ insert name value dictionary) :
    entry = (name, value) ∨ entry ∈ dictionary := by
  induction dictionary with
  | nil => exact .inl (List.mem_singleton.mp member)
  | cons first rest ih =>
      rw [insert] at member
      split at member
      · exact List.mem_cons.mp member
      · rcases List.mem_cons.mp member with same | later
        · exact .inl same
        · exact .inr (List.mem_cons_of_mem _ later)
      · rcases List.mem_cons.mp member with same | later
        · exact .inr (same ▸ List.mem_cons_self)
        · exact (ih later).imp_right (List.mem_cons_of_mem _)

end Dictionary

end Schemata
