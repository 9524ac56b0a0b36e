/-!
# Named things

A name stands for the thing that was last given it.
-/

set_option autoImplicit false

namespace HalfMatrix

structure Names (α : Type) where
  bindings : List (String × α) := []

namespace Names

variable {α : Type}

def find? (names : Names α) (name : String) : Option α :=
  names.bindings.lookup name

def erase (names : Names α) (name : String) : Names α :=
  ⟨names.bindings.filter fun binding => binding.1 != name⟩

def insert (names : Names α) (name : String) (value : α) : Names α :=
  ⟨(name, value) :: (names.erase name).bindings⟩

theorem find?_insert (names : Names α) (name other : String) (value : α) :
    (names.insert name value).find? other =
      if other = name then some value else names.find? other := by
  obtain ⟨bindings⟩ := names
  by_cases same : other = name
  · simp [find?, insert, same]
  · have missed : (other == name) = false := by simpa using same
    simp only [find?, insert, erase, List.lookup_cons, missed, if_neg same]
    induction bindings with
    | nil => rfl
    | cons binding rest ih =>
        obtain ⟨key, held⟩ := binding
        by_cases kept : key = name
        · subst kept
          simp [List.lookup_cons, missed, ih]
        · simp [List.lookup_cons, kept, ih]

theorem find?_insert_name (names : Names α) (name : String) (value : α) :
    (names.insert name value).find? name = some value := by
  rw [find?_insert, if_pos rfl]

theorem find?_erase (names : Names α) (name other : String) :
    (names.erase name).find? other = if other = name then none else names.find? other := by
  obtain ⟨bindings⟩ := names
  simp only [find?, erase]
  induction bindings with
  | nil => simp
  | cons binding rest ih =>
      obtain ⟨key, held⟩ := binding
      by_cases kept : key = name
      · subst kept
        by_cases same : other = key
        · simpa [List.filter_cons, same] using ih
        · have missed : (other == key) = false := by simpa using same
          simpa [List.filter_cons, List.lookup_cons, missed, same] using ih
      · by_cases same : other = name
        · subst same
          have missed : (other == key) = false := by simpa using Ne.symm kept
          simpa [List.filter_cons, List.lookup_cons, missed, kept] using ih
        · simp only [List.filter_cons, List.lookup_cons, kept, ne_eq, not_false_eq_true,
            bne_iff_ne, if_true, if_neg same] at ih ⊢
          rw [ih]

end Names

end HalfMatrix
