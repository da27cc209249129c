import RtmpEndpoint.Session.Registry

/-!
# Ids that are handed out

An id that is handed out was not in use, is in use from then on, and no other id is touched. Giving
one back is the reverse. A registry moves its two kinds of ids apart from each other.
-/

namespace RtmpEndpoint

namespace Table

variable {α : Type} {t : Table α}

theorem pairwise_entries : t.entries.Pairwise (fun a b => a.1 ≠ b.1) :=
  t.sorted.imp fun hlt => UInt32.ne_of_lt hlt

theorem nodup_ids : t.ids.Nodup := List.pairwise_map.mpr t.pairwise_entries

theorem sorted_ids : t.ids.Pairwise (· < ·) := List.pairwise_map.mpr t.sorted

/-- The first id that passes a test is the smallest one that does. -/
theorem le_of_find?_ids {p : UInt32 → Bool} {id other : UInt32} (h : t.ids.find? p = some id)
    (hmem : other ∈ t.ids) (hother : p other = true) : id ≤ other := by
  obtain ⟨-, before, after, hids, hbefore⟩ := List.find?_eq_some_iff_append.mp h
  rw [hids] at hmem
  rcases List.mem_append.mp hmem with hfirst | hrest
  · have hnot := hbefore other hfirst
    rw [hother] at hnot
    cases hnot
  · have hsorted := t.sorted_ids
    rw [hids] at hsorted
    have hlater := (List.pairwise_cons.mp (List.pairwise_append.mp hsorted).2.1).1
    rcases List.mem_cons.mp hrest with rfl | hrest
    · exact UInt32.le_refl other
    · exact UInt32.le_of_lt (hlater other hrest)

theorem le_of_head?_ids {id other : UInt32} (h : t.ids.head? = some id) (hmem : other ∈ t.ids) :
    id ≤ other := by
  have hfind : t.ids.find? (fun _ => true) = some id := by
    rw [← h]
    cases t.ids <;> rfl
  exact le_of_find?_ids hfind hmem rfl

theorem mem_ids_restrict {keep : UInt32 → Bool} {id : UInt32} :
    id ∈ (t.restrict keep).ids ↔ keep id = true ∧ id ∈ t.ids := by
  simp only [mem_ids_iff, contains, get?_restrict]
  cases keep id <;> simp

theorem mem_entries_iff {id : UInt32} {value : α} :
    (id, value) ∈ t.entries ↔ t.get? id = some value := by
  obtain ⟨entries, sorted⟩ := t
  simp only [get?]
  induction entries with
  | nil => simp [find]
  | cons e rest ih =>
    obtain ⟨k, v⟩ := e
    obtain ⟨hk, hrest⟩ := List.pairwise_cons.mp sorted
    rw [find, List.mem_cons, ih hrest]
    split
    · next heq =>
      -- The ids of the rest are larger.
      have hnone : find rest id ≠ some value := by
        intro h
        obtain ⟨a, ha, hid⟩ := List.mem_map.mp (mem_ids_of_find (by rw [h]; rfl))
        have hlt := hk a ha
        rw [hid, ← heq] at hlt
        exact UInt32.lt_irrefl _ hlt
      simp [heq, hnone, eq_comm]
    · next hne => simp [Ne.symm hne]

theorem mem_values_iff {value : α} : value ∈ t.values ↔ ∃ id, t.get? id = some value := by
  simp only [values, List.mem_map, ← mem_entries_iff]
  constructor
  · rintro ⟨⟨id, value⟩, h, rfl⟩
    exact ⟨id, h⟩
  · rintro ⟨id, h⟩
    exact ⟨(id, value), h, rfl⟩

end Table

namespace ChunkStreamIds

variable {ids next : ChunkStreamIds} {id : UInt32}

theorem isLive_iff : ids.isLive id = true ↔
    3 ≤ id.toNat ∧ id.toNat < ids.next ∧ ids.free.contains id = false := by
  simp [isLive, and_assoc]

theorem isLive_initial (id : UInt32) : initial.isLive id = false := by
  rw [Bool.eq_false_iff, ne_eq, isLive_iff]
  simp only [initial]
  omega

theorem inRange_of_isLive (h : ids.isLive id = true) : 3 ≤ id.toNat ∧ id.toNat ≤ 65599 := by
  obtain ⟨hge, hlt, -⟩ := isLive_iff.mp h
  have hle := ids.next_le
  omega

/-- The id that is handed out was free, and it is the only one that is live now and was not
before. -/
theorem isLive_allocate (h : ids.allocate = some (id, next)) :
    ids.isLive id = false ∧
      ∀ other, next.isLive other = true ↔ other = id ∨ ids.isLive other = true := by
  unfold allocate at h
  split at h
  · next hle =>
    cases h
    have hid : (UInt32.ofNat ids.next).toNat = ids.next :=
      UInt32.toNat_ofNat_of_lt' (Nat.lt_of_le_of_lt hle (by decide))
    have hfree : ids.free.contains (UInt32.ofNat ids.next) = false := by
      rw [Bool.eq_false_iff, ne_eq, ← Table.mem_ids_iff]
      intro hmem
      have hlt := (ids.free_lt _ hmem).2
      omega
    constructor
    · rw [Bool.eq_false_iff, ne_eq, isLive_iff, hid]
      omega
    · intro other
      have hge := ids.three_le_next
      simp only [isLive_iff]
      constructor
      · rintro ⟨hthree, hlt, hcontains⟩
        by_cases heq : other.toNat = ids.next
        · exact .inl (UInt32.toNat_inj.mp (heq.trans hid.symm))
        · exact .inr ⟨hthree, by omega, hcontains⟩
      · rintro (rfl | ⟨hthree, hlt, hcontains⟩)
        · exact ⟨by omega, by omega, hfree⟩
        · exact ⟨hthree, by omega, hcontains⟩
  · next hgt =>
    split at h
    · cases h
    · next first hhead =>
      cases h
      have hmem : id ∈ ids.free.ids := List.mem_of_mem_head? hhead
      have hfree : ids.free.contains id = true := Table.mem_ids_iff.mp hmem
      have hrange := ids.free_lt id hmem
      constructor
      · rw [Bool.eq_false_iff, ne_eq, isLive_iff, hfree]
        simp
      · intro other
        simp only [isLive_iff, Table.contains, Table.get?_erase]
        by_cases heq : id = other
        · subst heq
          simp [hrange]
        · simp [heq, Ne.symm heq]

theorem isLive_release (id other : UInt32) :
    (ids.release id).isLive other = true ↔ ids.isLive other = true ∧ other ≠ id := by
  unfold release
  split
  · simp only [isLive_iff, Table.contains, Table.get?_insert]
    by_cases heq : id = other
    · simp [heq]
    · simp [heq, Ne.symm heq]
  · next hout =>
    refine ⟨fun h => ⟨h, ?_⟩, And.left⟩
    rintro rfl
    obtain ⟨hge, hlt, -⟩ := isLive_iff.mp h
    exact hout ⟨hge, hlt⟩

/-- As many ids are live as a list without repetition has that names them all. -/
theorem live_eq {held : List UInt32} (hnodup : held.Nodup)
    (h : ∀ id, id ∈ held ↔ ids.isLive id = true) : ids.live = held.length := by
  have hdisjoint : ∀ id ∈ ids.free.ids, ∀ other ∈ held, id ≠ other := by
    rintro id hfree other hheld rfl
    have hcontains := (isLive_iff.mp ((h id).mp hheld)).2.2
    exact absurd (hcontains.symm.trans (Table.mem_ids_iff.mp hfree)) (by decide)
  have hboth : ((ids.free.ids ++ held).map UInt32.toNat).Nodup := by
    rw [List.Nodup, List.pairwise_map]
    have happend := List.pairwise_append.mpr ⟨Table.nodup_ids, hnodup, hdisjoint⟩
    exact happend.imp fun hne heq => hne (UInt32.toNat_inj.mp heq)
  -- Each id below the counter was given back or is live.
  have hperm : ((ids.free.ids ++ held).map UInt32.toNat).Perm (List.range' 3 (ids.next - 3)) := by
    apply (List.perm_ext_iff_of_nodup hboth List.nodup_range').mpr
    intro n
    have hthree := ids.three_le_next
    simp only [List.mem_map, List.mem_append, List.mem_range'_1, h]
    constructor
    · rintro ⟨id, hid | hid, rfl⟩
      · have hrange := ids.free_lt id hid
        omega
      · have hrange := isLive_iff.mp hid
        omega
    · rintro ⟨hge, hlt⟩
      have hsmall : n < 65600 := by
        have hle := ids.next_le
        omega
      have hword : (UInt32.ofNat n).toNat = n :=
        UInt32.toNat_ofNat_of_lt' (Nat.lt_trans hsmall (by decide))
      refine ⟨UInt32.ofNat n, ?_, hword⟩
      rw [Table.mem_ids_iff, isLive_iff, hword]
      cases ids.free.contains (UInt32.ofNat n) with
      | true => exact .inl rfl
      | false => exact .inr ⟨hge, by omega, rfl⟩
  have hlength := hperm.length_eq
  rw [List.length_map, List.length_append, List.length_range'] at hlength
  have hsize : ids.free.ids.length = ids.free.size := List.length_map _
  rw [live, ← hlength, hsize]
  omega

end ChunkStreamIds

namespace Registry

variable {α : Type} {r t : Registry α} {id : UInt32}

theorem firstUnused_some {streams : Table α} {next n : Nat}
    (h : firstUnused streams next = some n) : streams.contains (UInt32.ofNat n) = false := by
  fun_induction firstUnused streams next with
  | case1 next hlt hused ih => exact ih h
  | case2 next hlt hfree =>
    cases h
    exact Bool.eq_false_iff.mpr hfree
  | case3 next hge => cases h

/-- A message stream id that is handed out has no stream. -/
theorem allocate_some (h : r.allocate = some (id, t)) :
    r.get? id = none ∧ t.streams = r.streams ∧ t.chunkStreamIds = r.chunkStreamIds := by
  have hunused {other : UInt32} (hcontains : r.streams.contains other = false) :
      r.get? other = none := by
    simpa [Table.contains, get?] using hcontains
  unfold allocate at h
  split at h
  · next found hfind =>
    cases h
    have hfree := List.find?_some hfind
    exact ⟨hunused (by simpa using hfree), rfl, rfl⟩
  · split at h
    · next n hfirst =>
      cases h
      exact ⟨hunused (firstUnused_some hfirst), rfl, rfl⟩
    · cases h

/-- The new stream is the only change to the streams. -/
theorem add_some {build : UInt32 → α} (h : r.add build = some (id, t)) :
    r.get? id = none ∧ t.chunkStreamIds = r.chunkStreamIds ∧
      ∀ other, t.get? other = if id = other then some (build id) else r.get? other := by
  unfold add at h
  split at h
  · next found allocated halloc =>
    cases h
    obtain ⟨hunused, hstreams, hids⟩ := allocate_some halloc
    refine ⟨hunused, hids, fun other => ?_⟩
    rw [get?, Table.get?_insert, hstreams]
    rfl
  · cases h

theorem get?_remove (hid : id ≠ controlMessageStreamId) (other : UInt32) :
    (r.remove id).2.get? other = if id = other then none else r.get? other := by
  rw [remove, if_neg hid]
  split
  · next hnone =>
    split
    · next heq => exact heq ▸ hnone
    · rfl
  · exact Table.get?_erase r.streams id other

theorem chunkStreamIds_remove (id : UInt32) :
    (r.remove id).2.chunkStreamIds = r.chunkStreamIds := by
  unfold remove
  split
  · rfl
  · split <;> rfl

end Registry

end RtmpEndpoint
