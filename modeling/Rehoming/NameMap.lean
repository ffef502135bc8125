/-! Maps from names to values, kept in the order of the names' bytes. -/

namespace Rehoming

namespace NameMap

/-- Puts a value at its place in an ordered list, over one of the same name. -/
def put {α : Type} (name : String) (value : α) : List (String × α) → List (String × α)
  | [] => [(name, value)]
  | (other, old) :: rest =>
    if name < other then (name, value) :: (other, old) :: rest
    else if name = other then (name, value) :: rest
    else (other, old) :: put name value rest

abbrev Ordered {α : Type} (entries : List (String × α)) : Prop :=
  entries.Pairwise fun a b => a.1 < b.1

theorem mem_put {α : Type} {name : String} {value : α} {entries : List (String × α)}
    {e : String × α} (h : e ∈ put name value entries) : e = (name, value) ∨ e ∈ entries := by
  induction entries with
  | nil => simpa [put] using h
  | cons first rest ih =>
    simp only [put] at h
    split at h
    · simpa using h
    · split at h
      · simp only [List.mem_cons] at h ⊢
        rcases h with h | h
        · exact .inl h
        · exact .inr (.inr h)
      · simp only [List.mem_cons] at h ⊢
        rcases h with h | h
        · exact .inr (.inl h)
        · rcases ih h with h | h
          · exact .inl h
          · exact .inr (.inr h)

theorem ordered_put {α : Type} (name : String) (value : α) {entries : List (String × α)}
    (h : Ordered entries) : Ordered (put name value entries) := by
  induction entries with
  | nil => simp [put, Ordered]
  | cons first rest ih =>
    obtain ⟨hf, hr⟩ := List.pairwise_cons.mp h
    simp only [put]
    split
    · rename_i hlt
      refine List.pairwise_cons.mpr ⟨fun e he => ?_, h⟩
      rcases List.mem_cons.mp he with he | he
      · exact he ▸ hlt
      · exact String.lt_trans hlt (hf e he)
    · rename_i hlt
      split
      · rename_i heq
        exact List.pairwise_cons.mpr ⟨fun e he => heq ▸ hf e he, hr⟩
      · rename_i hne
        refine List.pairwise_cons.mpr ⟨fun e he => ?_, ih hr⟩
        rcases mem_put he with he | he
        · subst he
          exact Std.lt_of_le_of_ne (String.not_lt.mp hlt) (Ne.symm hne)
        · exact hf e he

end NameMap

structure NameMap (α : Type) where
  entries : List (String × α)
  ordered : NameMap.Ordered entries

namespace NameMap

variable {α β : Type}

instance [DecidableEq α] : DecidableEq (NameMap α) := fun a b =>
  if h : a.entries = b.entries then
    .isTrue (by cases a; cases b; simp_all)
  else .isFalse fun e => h (e ▸ rfl)

def empty : NameMap α := ⟨[], .nil⟩

instance : Inhabited (NameMap α) := ⟨empty⟩

def insert (m : NameMap α) (name : String) (value : α) : NameMap α :=
  ⟨put name value m.entries, ordered_put name value m.ordered⟩

def get? (m : NameMap α) (name : String) : Option α := m.entries.lookup name

/-- The last of several values under one name counts. -/
def ofList (entries : List (String × α)) : NameMap α :=
  entries.foldl (fun m e => m.insert e.1 e.2) empty

def size (m : NameMap α) : Nat := m.entries.length

def map (f : α → β) (m : NameMap α) : NameMap β :=
  ⟨m.entries.map fun e => (e.1, f e.2), by
    have := m.ordered
    simpa [Ordered, List.pairwise_map] using this⟩

/-- The entries whose names pass. -/
def filter (p : String → Bool) (m : NameMap α) : NameMap α :=
  ⟨m.entries.filter fun e => p e.1, m.ordered.filter _⟩

end NameMap
end Rehoming
