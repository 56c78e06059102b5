/-!
Bindings in the order in which their keys were first given a value. Giving a key a new value keeps
its place; a key that is erased and given again goes to the end.
-/

namespace Knot

abbrev Bindings (α β : Type) := List (α × β)

namespace Bindings

variable {α β : Type} [BEq α]

def assign (key : α) (value : β) : Bindings α β → Bindings α β
  | [] => [(key, value)]
  | (k, v) :: rest => if k == key then (k, value) :: rest else (k, v) :: assign key value rest

def erase (key : α) (bindings : Bindings α β) : Bindings α β :=
  bindings.filter fun (k, _) => !(k == key)

def keys (bindings : Bindings α β) : List α := bindings.map (·.1)

variable [LawfulBEq α]

theorem lookup_assign_self (key : α) (value : β) (bindings : Bindings α β) :
    (assign key value bindings).lookup key = some value := by
  induction bindings with
  | nil => simp [assign]
  | cons head rest ih =>
      obtain ⟨k, v⟩ := head
      by_cases h : k = key
      · simp [assign, h]
      · have h' : (key == k) = false := by simpa using fun e => h e.symm
        simp [assign, h, List.lookup_cons, h', ih]

theorem lookup_assign_of_ne {key other : α} (value : β) (bindings : Bindings α β)
    (ne : other ≠ key) : (assign key value bindings).lookup other = bindings.lookup other := by
  have ne' : (other == key) = false := by simpa using ne
  induction bindings with
  | nil => simp [assign, List.lookup_cons, ne']
  | cons head rest ih =>
      obtain ⟨k, v⟩ := head
      by_cases h : k = key
      · simp [assign, h, List.lookup_cons, ne']
      · simp [assign, h, List.lookup_cons, ih]

theorem keys_assign_of_mem {key : α} (value : β) {bindings : Bindings α β}
    (mem : key ∈ keys bindings) : keys (assign key value bindings) = keys bindings := by
  induction bindings with
  | nil => simp [keys] at mem
  | cons head rest ih =>
      obtain ⟨k, v⟩ := head
      by_cases h : k = key
      · simp [assign, keys, h]
      · have mem' : key ∈ keys rest := by
          simp only [keys, List.map_cons, List.mem_cons] at mem ⊢
          exact mem.resolve_left fun e => h e.symm
        simpa [assign, keys, h] using ih mem'

theorem assign_of_not_mem {key : α} (value : β) {bindings : Bindings α β} (new : key ∉ keys bindings) :
    assign key value bindings = bindings ++ [(key, value)] := by
  induction bindings with
  | nil => rfl
  | cons head rest ih =>
      obtain ⟨k, v⟩ := head
      simp only [keys, List.map_cons, List.mem_cons, not_or] at new
      have apart : (k == key) = false := by simpa using Ne.symm new.1
      rw [assign, apart, if_neg Bool.false_ne_true, ih new.2]
      rfl

theorem lookup_erase_self (key : α) (bindings : Bindings α β) :
    (erase key bindings).lookup key = none := by
  induction bindings with
  | nil => rfl
  | cons head rest ih =>
      obtain ⟨k, v⟩ := head
      simp only [erase] at ih
      by_cases h : k = key
      · simp [erase, h, ih]
      · have h' : (key == k) = false := by simpa using fun e => h e.symm
        simp [erase, h, List.lookup_cons, h', ih]

theorem lookup_erase_of_ne {key other : α} (bindings : Bindings α β) (ne : other ≠ key) :
    (erase key bindings).lookup other = bindings.lookup other := by
  have ne' : (other == key) = false := by simpa using ne
  induction bindings with
  | nil => rfl
  | cons head rest ih =>
      obtain ⟨k, v⟩ := head
      simp only [erase] at ih
      by_cases h : k = key
      · simp [erase, h, List.lookup_cons, ne', ih]
      · simp [erase, h, List.lookup_cons, ih]

theorem lookup_filter {p : α → Bool} {key : α} (bindings : Bindings α β) (kept : p key = true) :
    (bindings.filter fun e => p e.1).lookup key = bindings.lookup key := by
  induction bindings with
  | nil => rfl
  | cons head rest ih =>
      obtain ⟨k, v⟩ := head
      by_cases h : key = k
      · subst h
        simp [kept]
      · have h' : (key == k) = false := by simpa using h
        rw [List.filter_cons]
        split <;> simp [List.lookup_cons, h', ih]

theorem filter_assign {p : α → Bool} {key : α} (value : β) (bindings : Bindings α β)
    (kept : p key = true) :
    (assign key value bindings).filter (fun e => p e.1) =
      assign key value (bindings.filter fun e => p e.1) := by
  induction bindings with
  | nil => simp [assign, kept]
  | cons head rest ih =>
      obtain ⟨k, v⟩ := head
      by_cases h : k = key
      · subst h
        simp [assign, kept]
      · rw [List.filter_cons]
        split <;> simp_all [assign]

theorem filter_assign_of_not {p : α → Bool} {key : α} (value : β) (bindings : Bindings α β)
    (dropped : p key = false) :
    (assign key value bindings).filter (fun e => p e.1) = bindings.filter fun e => p e.1 := by
  induction bindings with
  | nil => simp [assign, dropped]
  | cons head rest ih =>
      obtain ⟨k, v⟩ := head
      by_cases h : k = key
      · subst h
        simp [assign, dropped]
      · rw [List.filter_cons, ← ih]
        simp [assign, h, List.filter_cons]

end Bindings

end Knot
