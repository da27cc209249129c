/-!
# Tables

A table maps 32 bit ids to values. Its entries are kept in increasing order of their ids, so two
tables with the same entries are the same table.
-/

namespace RtmpEndpoint

structure Table (α : Type) where
  entries : List (UInt32 × α)
  sorted : entries.Pairwise (fun a b => a.1 < b.1)

namespace Table

variable {α : Type}

def empty : Table α := ⟨[], .nil⟩

instance : Inhabited (Table α) := ⟨empty⟩
instance : EmptyCollection (Table α) := ⟨empty⟩

/-- The ids in use, in increasing order. -/
def ids (t : Table α) : List UInt32 := t.entries.map (·.1)
/-- The values, in increasing order of their ids. -/
def values (t : Table α) : List α := t.entries.map (·.2)
def size (t : Table α) : Nat := t.entries.length

def find : List (UInt32 × α) → UInt32 → Option α
  | [], _ => none
  | (k, v) :: rest, id => if k = id then some v else find rest id

def get? (t : Table α) (id : UInt32) : Option α := find t.entries id
def contains (t : Table α) (id : UInt32) : Bool := (t.get? id).isSome

/-- Puts an entry where its id belongs, in place of one with the same id. -/
def place (id : UInt32) (value : α) : List (UInt32 × α) → List (UInt32 × α)
  | [] => [(id, value)]
  | (k, v) :: rest =>
    if id < k then (id, value) :: (k, v) :: rest
    else if id = k then (id, value) :: rest
    else (k, v) :: place id value rest

theorem mem_place {id : UInt32} {value : α} {a : UInt32 × α} {entries : List (UInt32 × α)}
    (h : a ∈ place id value entries) : a = (id, value) ∨ a ∈ entries := by
  induction entries with
  | nil => exact .inl (by simpa [place] using h)
  | cons e rest ih =>
    obtain ⟨k, v⟩ := e
    rw [place] at h
    split at h
    · simpa using h
    · split at h
      · rcases List.mem_cons.1 h with h | h
        · exact .inl h
        · exact .inr (List.mem_cons_of_mem _ h)
      · rcases List.mem_cons.1 h with h | h
        · exact .inr (by simp [h])
        · exact (ih h).imp_right (List.mem_cons_of_mem _)

theorem sorted_place (id : UInt32) (value : α) {entries : List (UInt32 × α)}
    (h : entries.Pairwise (fun a b => a.1 < b.1)) :
    (place id value entries).Pairwise (fun a b => a.1 < b.1) := by
  induction entries with
  | nil => simp [place]
  | cons e rest ih =>
    obtain ⟨k, v⟩ := e
    obtain ⟨hk, hrest⟩ := List.pairwise_cons.1 h
    rw [place]
    split
    · next hlt =>
      refine List.pairwise_cons.2 ⟨?_, h⟩
      intro a ha
      rcases List.mem_cons.1 ha with rfl | ha
      · exact hlt
      · exact UInt32.lt_trans hlt (hk a ha)
    · split
      · next heq => subst heq; exact List.pairwise_cons.2 ⟨hk, hrest⟩
      · next hlt hne =>
        refine List.pairwise_cons.2 ⟨?_, ih hrest⟩
        intro a ha
        rcases mem_place ha with rfl | ha
        · exact UInt32.lt_of_le_of_ne (UInt32.not_lt.1 hlt) (Ne.symm hne)
        · exact hk a ha

def insert (t : Table α) (id : UInt32) (value : α) : Table α :=
  ⟨place id value t.entries, sorted_place id value t.sorted⟩

def erase (t : Table α) (id : UInt32) : Table α :=
  ⟨t.entries.filter (fun e => e.1 != id), t.sorted.filter _⟩

/-- Replaces the value at `id`, if there is one. -/
def modify (t : Table α) (id : UInt32) (f : α → α) : Table α :=
  match t.get? id with
  | some value => t.insert id (f value)
  | none => t

/-- Keeps the entries whose id passes the test. -/
def restrict (t : Table α) (keep : UInt32 → Bool) : Table α :=
  ⟨t.entries.filter (fun e => keep e.1), t.sorted.filter _⟩

/-! What each operation does to a lookup. -/

theorem find_place (id : UInt32) (value : α) (entries : List (UInt32 × α)) (id' : UInt32) :
    find (place id value entries) id' = if id = id' then some value else find entries id' := by
  induction entries with
  | nil => simp [place, find]
  | cons e rest ih =>
    obtain ⟨k, v⟩ := e
    rw [place]
    split
    · simp [find]
    · split
      · next h => subst h; simp only [find]; split <;> simp_all
      · next h => simp only [find, ih]; split <;> simp_all

@[simp] theorem get?_empty (id : UInt32) : (empty : Table α).get? id = none := rfl

theorem get?_insert (t : Table α) (id : UInt32) (value : α) (id' : UInt32) :
    (t.insert id value).get? id' = if id = id' then some value else t.get? id' :=
  find_place id value t.entries id'

@[simp] theorem get?_insert_self (t : Table α) (id : UInt32) (value : α) :
    (t.insert id value).get? id = some value := by simp [get?_insert]

theorem get?_erase (t : Table α) (id id' : UInt32) :
    (t.erase id).get? id' = if id = id' then none else t.get? id' := by
  obtain ⟨entries, sorted⟩ := t
  simp only [get?, erase]
  clear sorted
  induction entries with
  | nil => simp [find]
  | cons e rest ih =>
    obtain ⟨k, v⟩ := e
    by_cases hk : k = id
    · subst hk
      simp only [List.filter_cons, bne_self_eq_false, Bool.false_eq_true, ↓reduceIte, ih, find]
      split <;> simp_all
    · simp only [List.filter_cons, bne_iff_ne, ne_eq, hk, not_false_eq_true, ↓reduceIte, find, ih]
      split
      · next h => subst h; simp [Ne.symm hk]
      · rfl

@[simp] theorem get?_erase_self (t : Table α) (id : UInt32) : (t.erase id).get? id = none := by
  simp [get?_erase]

theorem find_filter (keep : UInt32 → Bool) (entries : List (UInt32 × α)) (id : UInt32) :
    find (entries.filter (fun e => keep e.1)) id = if keep id then find entries id else none := by
  induction entries with
  | nil => simp [find]
  | cons e rest ih =>
    obtain ⟨k, v⟩ := e
    simp only [List.filter_cons, find]
    by_cases hk : k = id <;> by_cases h : keep k <;> simp_all [find]

theorem get?_restrict (t : Table α) (keep : UInt32 → Bool) (id : UInt32) :
    (t.restrict keep).get? id = if keep id then t.get? id else none :=
  find_filter keep t.entries id

theorem mem_ids_of_find {id : UInt32} {entries : List (UInt32 × α)}
    (h : (find entries id).isSome) : id ∈ entries.map (·.1) := by
  induction entries with
  | nil => simp [find] at h
  | cons e rest ih =>
    obtain ⟨k, v⟩ := e
    rw [find] at h
    split at h
    · next hk => simp [hk]
    · exact List.mem_cons_of_mem _ (ih h)

theorem isSome_find_of_mem {id : UInt32} {entries : List (UInt32 × α)}
    (h : id ∈ entries.map (·.1)) : (find entries id).isSome := by
  induction entries with
  | nil => simp at h
  | cons e rest ih =>
    obtain ⟨k, v⟩ := e
    rw [find]
    split
    · rfl
    · next hk =>
      simp only [List.map_cons, List.mem_cons] at h
      exact ih (h.resolve_left fun h => hk h.symm)

theorem mem_ids_iff {t : Table α} {id : UInt32} : id ∈ t.ids ↔ t.contains id = true :=
  ⟨isSome_find_of_mem, mem_ids_of_find⟩

theorem mem_ids_of_mem_erase {t : Table α} {id other : UInt32} (h : other ∈ (t.erase id).ids) :
    other ∈ t.ids := by
  simp only [ids, erase, List.mem_map, List.mem_filter] at h ⊢
  obtain ⟨e, ⟨he, -⟩, rfl⟩ := h
  exact ⟨e, he, rfl⟩

theorem mem_ids_insert {t : Table α} {id other : UInt32} {value : α} :
    other ∈ (t.insert id value).ids ↔ other = id ∨ other ∈ t.ids := by
  simp only [mem_ids_iff, contains, get?_insert]
  by_cases h : id = other
  · simp [h]
  · simp [h, Ne.symm h]

theorem place_of_find {id : UInt32} {value : α} {entries : List (UInt32 × α)}
    (hs : entries.Pairwise (fun a b => a.1 < b.1)) (h : find entries id = some value) :
    place id value entries = entries := by
  induction entries with
  | nil => simp [find] at h
  | cons e rest ih =>
    obtain ⟨k, v⟩ := e
    obtain ⟨hk, hrest⟩ := List.pairwise_cons.1 hs
    rw [find] at h
    split at h
    · next heq =>
      subst heq
      rw [place, if_neg (UInt32.lt_irrefl k), if_pos rfl, Option.some.inj h]
    · next hne =>
      have hmem : id ∈ rest.map (·.1) := mem_ids_of_find (by rw [h]; rfl)
      obtain ⟨a, ha, rfl⟩ := List.mem_map.1 hmem
      rw [place, if_neg (UInt32.lt_asymm (hk a ha)), if_neg (Ne.symm hne), ih hrest h]

/-- Writing down what a table already says changes nothing. -/
theorem insert_of_get? {t : Table α} {id : UInt32} {value : α} (h : t.get? id = some value) :
    t.insert id value = t := by
  obtain ⟨entries, sorted⟩ := t
  simp only [insert, place_of_find sorted h]

/-- Erasing an id that is not in use changes nothing. -/
theorem erase_of_get? {t : Table α} {id : UInt32} (h : t.get? id = none) : t.erase id = t := by
  obtain ⟨entries, sorted⟩ := t
  have hkept : entries.filter (fun e => e.1 != id) = entries := by
    refine List.filter_eq_self.mpr fun e he => bne_iff_ne.mpr ?_
    rintro rfl
    have hmem : e.1 ∈ entries.map (·.1) := List.mem_map_of_mem he
    have hfound : (find entries e.1).isSome := isSome_find_of_mem hmem
    have hnone : find entries e.1 = none := h
    rw [hnone] at hfound
    cases hfound
  simp only [erase, hkept]

end Table

/-- A set of ids. -/
abbrev IdSet := Table Unit

end RtmpEndpoint
