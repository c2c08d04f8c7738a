/-
Dictionaries: values under names, each name once, in ascending order of
the names. The order is that of the code points. Since the order of the
names does not depend on how they came in, equal dictionaries are equal
lists, and listing one needs no sorting.
-/

namespace LayeredLexer

/-- Values under names, in ascending order of the names. -/
abbrev Dictionary (α : Type) := List (String × α)

namespace Dictionary

variable {α : Type}

/-- Puts what `f` makes of the value under a name, if there is one, in its
place. -/
def alter (key : String) (f : Option α → α) : Dictionary α → Dictionary α
  | [] => [(key, f none)]
  | (k, v) :: rest =>
    if key = k then (key, f (some v)) :: rest
    else if key < k then (key, f none) :: (k, v) :: rest
    else (k, v) :: alter key f rest

/-- Puts a value under a name, replacing the one that was there. -/
def insert (key : String) (value : α) (d : Dictionary α) : Dictionary α :=
  d.alter key fun _ => value

/-- The value under a name. -/
def get? (key : String) (d : Dictionary α) : Option α :=
  (d.find? fun entry => entry.1 == key).map (·.2)

/-- The dictionary of a list of pairs, a later pair replacing an earlier
one of its name. -/
def ofList (pairs : List (String × α)) : Dictionary α :=
  pairs.foldl (fun d (key, value) => insert key value d) []

-- ============================================================ lookups

variable {key other : String}

theorem get?_cons (k : String) (v : α) (rest : Dictionary α) :
    get? key ((k, v) :: rest) = if k = key then some v else get? key rest := by
  unfold get?
  rw [List.find?_cons]
  by_cases hk : k = key
  · simp [hk]
  · rw [beq_false_of_ne hk, if_neg hk]

/-- A value that is put under a name is found there. -/
theorem get?_insert_self (key : String) (value : α) (d : Dictionary α) :
    (d.insert key value).get? key = some value := by
  unfold insert
  induction d with
  | nil => rw [alter, get?_cons, if_pos rfl]
  | cons entry rest ih =>
      obtain ⟨k, v⟩ := entry
      rw [alter]
      by_cases hk : key = k
      · rw [if_pos hk, get?_cons, if_pos rfl]
      · rw [if_neg hk]
        by_cases hless : key < k
        · rw [if_pos hless, get?_cons, if_pos rfl]
        · rw [if_neg hless, get?_cons, if_neg (Ne.symm hk), ih]

/-- Altering the value under a name leaves the other names theirs. -/
theorem get?_alter_of_ne (hne : key ≠ other) (f : Option α → α) (d : Dictionary α) :
    (d.alter key f).get? other = d.get? other := by
  induction d with
  | nil => rw [alter, get?_cons, if_neg hne]
  | cons entry rest ih =>
      obtain ⟨k, v⟩ := entry
      rw [alter]
      by_cases hk : key = k
      · subst hk
        rw [if_pos rfl, get?_cons, get?_cons, if_neg hne, if_neg hne]
      · rw [if_neg hk]
        by_cases hless : key < k
        · rw [if_pos hless, get?_cons, if_neg hne]
        · rw [if_neg hless, get?_cons, get?_cons, ih]

theorem get?_insert_of_ne (hne : key ≠ other) (value : α) (d : Dictionary α) :
    (d.insert key value).get? other = d.get? other :=
  get?_alter_of_ne hne _ d

-- ============================================================== the order

/-- The names ascend. -/
def Ascending (d : Dictionary α) : Prop := d.Pairwise fun a b => a.1 < b.1

theorem ascending_nil : Ascending ([] : Dictionary α) := .nil

/-- Altering a value adds no other name. -/
theorem name_of_mem_alter {f : Option α → α} {d : Dictionary α} {entry : String × α}
    (h : entry ∈ d.alter key f) : entry.1 = key ∨ ∃ old ∈ d, old.1 = entry.1 := by
  induction d with
  | nil =>
      obtain rfl := List.mem_singleton.1 h
      exact Or.inl rfl
  | cons first rest ih =>
      obtain ⟨k, v⟩ := first
      rw [alter] at h
      split at h
      · rcases List.mem_cons.1 h with rfl | hrest
        · exact Or.inl rfl
        · exact Or.inr ⟨entry, List.mem_cons_of_mem _ hrest, rfl⟩
      · split at h
        · rcases List.mem_cons.1 h with rfl | hold
          · exact Or.inl rfl
          · exact Or.inr ⟨entry, hold, rfl⟩
        · rcases List.mem_cons.1 h with rfl | hrest
          · exact Or.inr ⟨_, List.mem_cons_self, rfl⟩
          · rcases ih hrest with hkey | ⟨old, hold, hname⟩
            · exact Or.inl hkey
            · exact Or.inr ⟨old, List.mem_cons_of_mem _ hold, hname⟩

theorem Ascending.alter {d : Dictionary α} (h : d.Ascending) (key : String) (f : Option α → α) :
    (d.alter key f).Ascending := by
  induction d with
  | nil => exact List.pairwise_singleton _ _
  | cons first rest ih =>
      obtain ⟨k, v⟩ := first
      obtain ⟨hfirst, hrest⟩ := List.pairwise_cons.1 h
      rw [Dictionary.alter]
      split
      next hk =>
        subst hk
        exact List.pairwise_cons.2 ⟨hfirst, hrest⟩
      next hk =>
        split
        next hless =>
          refine List.pairwise_cons.2 ⟨fun entry hentry => ?_, h⟩
          rcases List.mem_cons.1 hentry with rfl | hentry
          · exact hless
          · exact String.lt_trans hless (hfirst entry hentry)
        next hless =>
          refine List.pairwise_cons.2 ⟨fun entry hentry => ?_, ih hrest⟩
          rcases name_of_mem_alter hentry with hkey | ⟨old, hold, hname⟩
          · rw [hkey]
            refine Decidable.by_contra fun hnot => hk ?_
            exact String.le_antisymm (String.not_lt.1 hnot) (String.not_lt.1 hless)
          · exact hname ▸ hfirst old hold

/-- A name that is less than all others has no value. -/
theorem get?_of_lt {d : Dictionary α} (h : ∀ entry ∈ d, key < entry.1) : d.get? key = none := by
  induction d with
  | nil => rfl
  | cons first rest ih =>
      obtain ⟨k, v⟩ := first
      have hk : k ≠ key := by
        rintro rfl
        exact String.lt_irrefl _ (h _ List.mem_cons_self)
      rw [get?_cons, if_neg hk]
      exact ih fun entry hentry => h entry (List.mem_cons_of_mem _ hentry)

/-- Where the names ascend, a value that is altered is the one found. -/
theorem get?_alter_self {d : Dictionary α} (h : d.Ascending) (key : String) (f : Option α → α) :
    (d.alter key f).get? key = some (f (d.get? key)) := by
  induction d with
  | nil => rw [Dictionary.alter, get?_cons, if_pos rfl]; rfl
  | cons first rest ih =>
      obtain ⟨k, v⟩ := first
      obtain ⟨hfirst, hrest⟩ := List.pairwise_cons.1 h
      rw [Dictionary.alter]
      split
      next hk =>
        subst hk
        rw [get?_cons, get?_cons, if_pos rfl, if_pos rfl]
      next hk =>
        split
        next hless =>
          have hnone : get? key ((k, v) :: rest) = none := by
            apply get?_of_lt
            intro entry hentry
            rcases List.mem_cons.1 hentry with rfl | hentry
            · exact hless
            · exact String.lt_trans hless (hfirst entry hentry)
          rw [get?_cons, if_pos rfl, hnone]
        next hless => rw [get?_cons, get?_cons, if_neg (Ne.symm hk), if_neg (Ne.symm hk), ih hrest]

/-- A name that is greater than all others comes last. -/
theorem insert_of_gt {d : Dictionary α} (h : ∀ entry ∈ d, entry.1 < key) (value : α) :
    d.insert key value = d ++ [(key, value)] := by
  unfold insert
  induction d with
  | nil => rfl
  | cons first rest ih =>
      obtain ⟨k, v⟩ := first
      have hless : k < key := h _ List.mem_cons_self
      have hk : key ≠ k := by
        rintro rfl
        exact String.lt_irrefl _ hless
      rw [Dictionary.alter, if_neg hk, if_neg (String.lt_asymm hless),
        ih fun entry hentry => h entry (List.mem_cons_of_mem _ hentry)]
      rfl

/-- A dictionary is the dictionary of its own entries. -/
theorem Ascending.ofList_eq {d : Dictionary α} (h : d.Ascending) : ofList d = d := by
  have hbehind (done rest : Dictionary α) (hall : (done ++ rest).Ascending) :
      rest.foldl (fun d (key, value) => insert key value d) done = done ++ rest := by
    induction rest generalizing done with
    | nil => exact (List.append_nil done).symm
    | cons entry rest ih =>
        obtain ⟨key, value⟩ := entry
        have hlast : ∀ other ∈ done, other.1 < key := fun other hother =>
          (List.pairwise_append.1 hall).2.2 other hother _ List.mem_cons_self
        have hsame : done ++ (key, value) :: rest = done ++ [(key, value)] ++ rest := by simp
        rw [hsame] at hall ⊢
        show rest.foldl _ (insert key value done) = _
        rw [insert_of_gt hlast]
        exact ih _ hall
  exact hbehind [] d h

end Dictionary

end LayeredLexer
