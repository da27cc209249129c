import RtmpEndpoint.Proofs.Session.StreamIds

/-!
# Which message stream id is next

A message stream that is added gets the smallest id that a stream was removed from and that has none
now, and otherwise one that was never handed out. Streams may also be stored under ids of the
caller's choice, so an id that was given back can have a stream again, and the counter can come to
one that has a stream already; both are passed over. What stands under an id is told from the calls
alone: it is what was stored there last, unless it has been removed since.
-/

namespace RtmpEndpoint.Registry

variable {α : Type}

/-- A call about the message streams of a registry. -/
inductive Request (α : Type) where
  | add (build : UInt32 → α)
  | insert (id : UInt32) (stream : α)
  | remove (id : UInt32)

/-- What has come of a call. Nothing comes of an addition that finds no id, or of a removal that
finds no stream. -/
inductive Event (α : Type) where
  | added (id : UInt32) (stream : α)
  | inserted (id : UInt32) (stream : α)
  | removed (id : UInt32)

namespace Event

/-- The id that the event is about. -/
def id : Event α → UInt32
  | .added id _ => id
  | .inserted id _ => id
  | .removed id => id

/-- What the event leaves under its id. -/
def stream? : Event α → Option α
  | .added _ stream => some stream
  | .inserted _ stream => some stream
  | .removed _ => none

end Event

/-! What is said about the past is said about the events, the latest one first. -/

/-- The stream that was stored last under the id, unless it has been removed since. -/
def standing (id : UInt32) (log : List (Event α)) : Option α :=
  (log.find? (·.id == id)).bind Event.stream?

/-- A stream was removed from the id, and it has none now. -/
structure Vacated (log : List (Event α)) (id : UInt32) : Prop where
  removed : .removed id ∈ log
  unused : standing id log = none

/-- The id to hand out. -/
structure Due (log : List (Event α)) (id : UInt32) : Prop where
  nonzero : id ≠ 0
  unused : standing id log = none
  /-- The smallest one that a stream was removed from comes first. -/
  least : ∀ other, Vacated log other → Vacated log id ∧ id ≤ other
  /-- Without any of those it is an id that was never handed out. -/
  fresh : (∀ other, ¬Vacated log other) → ∀ stream, .added id stream ∉ log

variable {r t : Registry α} {id : UInt32} {log : List (Event α)}

theorem standing_cons (event : Event α) (id : UInt32) : standing id (event :: log)
    = if event.id = id then event.stream? else standing id log := by
  rw [standing, List.find?_cons]
  by_cases h : event.id = id
  · rw [if_pos h, beq_iff_eq.mpr h]
    rfl
  · rw [if_neg h, beq_eq_false_iff_ne.mpr h, standing]

/-- What has been stored under an id stands there until it is removed. -/
theorem removed_mem_of_standing {event : Event α} (hmem : event ∈ log)
    (hunused : standing event.id log = none) : .removed event.id ∈ log := by
  cases hfind : log.find? (·.id == event.id) with
  | none => simpa using List.find?_eq_none.mp hfind event hmem
  | some latest =>
    have hid : latest.id = event.id := by simpa using List.find?_some hfind
    have hlatest := List.mem_of_find?_eq_some hfind
    rw [standing, hfind, Option.bind_some] at hunused
    rw [← hid]
    cases latest with
    | added id stream => cases hunused
    | inserted id stream => cases hunused
    | removed id => exact hlatest

/-! ## Ids that can be handed out -/

theorem get?_ne_none_iff : r.get? id ≠ none ↔ r.streams.contains id = true := by
  rw [get?, Table.contains, Option.isSome_iff_ne_none]

theorem toNat_ofNat_of_lt {n : Nat} (h : n < endOfIds) : (UInt32.ofNat n).toNat = n :=
  UInt32.toNat_ofNat_of_lt' (Nat.lt_trans h (by decide))

/-- The counter passes over ids that have a stream and over no others. -/
theorem firstUnused_passes {streams : Table α} {next n : Nat}
    (h : firstUnused streams next = some n) : next ≤ n ∧ n < endOfIds ∧
      ∀ k, next ≤ k → k < n → streams.contains (UInt32.ofNat k) = true := by
  fun_induction firstUnused streams next with
  | case1 next hlt hused ih =>
    obtain ⟨hle, hend, hpassed⟩ := ih h
    refine ⟨Nat.le_of_succ_le hle, hend, fun k hk hkn => ?_⟩
    rcases Nat.eq_or_lt_of_le hk with rfl | hk
    · exact hused
    · exact hpassed k hk hkn
  | case2 next hlt hfree =>
    cases h
    exact ⟨Nat.le_refl _, hlt, fun k hk hkn => absurd hkn (Nat.not_lt.mpr hk)⟩
  | case3 next hge => cases h

theorem firstUnused_none {streams : Table α} {next : Nat} (h : firstUnused streams next = none) :
    ∀ k, next ≤ k → k < endOfIds → streams.contains (UInt32.ofNat k) = true := by
  fun_induction firstUnused streams next with
  | case1 next hlt hused ih =>
    intro k hk hend
    rcases Nat.eq_or_lt_of_le hk with rfl | hk
    · exact hused
    · exact ih h k hk hend
  | case2 next hlt hfree => cases h
  | case3 next hge => exact fun k hk hend => absurd (Nat.lt_of_le_of_lt hk hend) hge

/-- The two ways to hand out an id, and the one not to. -/
theorem allocate_cases (r : Registry α) :
    (∃ id, r.allocate = some (id, { r with free := r.free.restrict (id < ·) }) ∧
      r.free.ids.find? (fun id => !r.streams.contains id) = some id) ∨
    ((∀ id ∈ r.free.ids, r.get? id ≠ none) ∧
      ((∃ n, r.allocate = some (UInt32.ofNat n, { r with free := .empty, next := n + 1 }) ∧
          firstUnused r.streams r.next = some n) ∨
        (r.allocate = none ∧ firstUnused r.streams r.next = none))) := by
  cases hfind : r.free.ids.find? (fun id => !r.streams.contains id) with
  | some id => exact .inl ⟨id, by simp only [allocate, hfind], rfl⟩
  | none =>
    refine .inr ⟨fun id hmem => ?_, ?_⟩
    · rw [get?_ne_none_iff]
      simpa using List.find?_eq_none.mp hfind id hmem
    · cases hfirst : firstUnused r.streams r.next with
      | some n => exact .inl ⟨n, by simp only [allocate, hfind, hfirst], rfl⟩
      | none => exact .inr ⟨by simp only [allocate, hfind, hfirst], rfl⟩

theorem add_cases {build : UInt32 → α} (h : r.add build = some (id, t)) :
    ∃ allocated, r.allocate = some (id, allocated) ∧
      t = { allocated with streams := allocated.streams.insert id (build id) } := by
  unfold add at h
  split at h
  · next halloc =>
    cases h
    exact ⟨_, halloc, rfl⟩
  · cases h

/-- There is an id to hand out: one without a stream that waits for one, or that the counter has not
passed. -/
def HasUnused (r : Registry α) : Prop :=
  ∃ id, r.get? id = none ∧ (id ∈ r.free.ids ∨ r.next ≤ id.toNat ∧ id.toNat < endOfIds)

theorem allocate_eq_none_iff : r.allocate = none ↔ ¬r.HasUnused := by
  rcases allocate_cases r with ⟨id, hfree, hfind⟩ | ⟨hused, ⟨n, hnew, hfirst⟩ | ⟨hnone, hfirst⟩⟩
  · have hunused : r.HasUnused :=
      ⟨id, (allocate_some hfree).1, .inl (List.mem_of_find?_eq_some hfind)⟩
    simp [hfree, hunused]
  · obtain ⟨hle, hend, -⟩ := firstUnused_passes hfirst
    have hid := toNat_ofNat_of_lt hend
    have hunused : r.HasUnused :=
      ⟨UInt32.ofNat n, (allocate_some hnew).1, .inr (by rw [hid]; exact ⟨hle, hend⟩)⟩
    simp [hnew, hunused]
  · refine ⟨fun _ => ?_, fun _ => hnone⟩
    rintro ⟨id, hunused, hfree | ⟨hle, hend⟩⟩
    · exact hused id hfree hunused
    · have hcontains := firstUnused_none hfirst id.toNat hle hend
      rw [UInt32.ofNat_toNat] at hcontains
      exact get?_ne_none_iff.mpr hcontains hunused

theorem add_eq_none_iff {build : UInt32 → α} : r.add build = none ↔ ¬r.HasUnused := by
  rw [← allocate_eq_none_iff, add]
  cases r.allocate <;> simp

/-! ## Storing and removing -/

theorem get?_insert (r : Registry α) (id : UInt32) (stream : α) (other : UInt32) :
    (r.insert id stream).get? other = if id = other then some stream else r.get? other :=
  Table.get?_insert r.streams id stream other

theorem fst_remove (hid : id ≠ controlMessageStreamId) : (r.remove id).1 = r.get? id := by
  rw [remove, if_neg hid, get?]
  cases r.streams.get? id <;> rfl

/-- What it is to remove a stream. -/
structure Removes (id : UInt32) (r t : Registry α) : Prop where
  notControl : id ≠ controlMessageStreamId
  stands : ∀ other, t.get? other = if id = other then none else r.get? other
  free : ∀ other, other ∈ t.free.ids ↔ other = id ∨ other ∈ r.free.ids
  next : t.next = r.next

theorem remove_some {stream : α} (h : r.remove id = (some stream, t)) : Removes id r t := by
  have hid : id ≠ controlMessageStreamId := by
    rintro rfl
    cases h
  have hstands := get?_remove (r := r) hid
  rw [h] at hstands
  rw [remove, if_neg hid] at h
  split at h
  · cases h
  · cases h
    exact ⟨hid, hstands, fun other => Table.mem_ids_insert, rfl⟩

theorem remove_none (h : r.remove id = (none, t)) : t = r := by
  unfold remove at h
  split at h
  · cases h
    rfl
  · split at h
    · cases h
      rfl
    · cases h

theorem mem_free_of_mem_allocate (halloc : r.allocate = some (id, t)) {other : UInt32}
    (hmem : other ∈ t.free.ids) : other ∈ r.free.ids := by
  rcases allocate_cases r with ⟨_, hfree, -⟩ | ⟨-, ⟨_, hnew, -⟩ | ⟨hnone, -⟩⟩
  · cases hfree.symm.trans halloc
    exact (Table.mem_ids_restrict.mp hmem).2
  · cases hnew.symm.trans halloc
    cases hmem
  · cases hnone.symm.trans halloc

/-- Handing out an id forgets only ids that have a stream. -/
theorem mem_free_allocate (halloc : r.allocate = some (id, t)) {other : UInt32}
    (hmem : other ∈ r.free.ids) (hunused : r.get? other = none) (hne : id ≠ other) :
    other ∈ t.free.ids := by
  rcases allocate_cases r with ⟨_, hfree, hfind⟩ | ⟨hused, -⟩
  · cases hfree.symm.trans halloc
    have hle := Table.le_of_find?_ids hfind hmem (by simpa [Table.contains, get?] using hunused)
    exact Table.mem_ids_restrict.mpr
      ⟨decide_eq_true (UInt32.lt_of_le_of_ne hle hne), hmem⟩
  · exact absurd hunused (hused other hmem)

/-- The counter passes over ids that have a stream, and over the one that it hands out. -/
theorem passed_allocate (halloc : r.allocate = some (id, t)) : r.next ≤ t.next ∧
    ∀ other, r.next ≤ other.toNat → other.toNat < t.next → id ≠ other → r.get? other ≠ none := by
  rcases allocate_cases r with ⟨_, hfree, -⟩ | ⟨-, ⟨n, hnew, hfirst⟩ | ⟨hnone, -⟩⟩
  · cases hfree.symm.trans halloc
    exact ⟨Nat.le_refl _, fun other hge hlt => absurd hlt (Nat.not_lt.mpr hge)⟩
  · cases hnew.symm.trans halloc
    obtain ⟨hle, hend, hpassed⟩ := firstUnused_passes hfirst
    refine ⟨Nat.le_succ_of_le hle, fun other hge hlt hne => ?_⟩
    rcases Nat.eq_or_lt_of_le (Nat.le_of_lt_succ hlt) with heq | hlt
    · exact absurd (by rw [← heq, UInt32.ofNat_toNat]) hne
    · rw [get?_ne_none_iff, ← UInt32.ofNat_toNat (x := other)]
      exact hpassed other.toNat hge hlt
  · cases hnone.symm.trans halloc

/-- What it is to store a stream: only ids that have one are forgotten or passed over. -/
structure Stores (id : UInt32) (stream : α) (r t : Registry α) : Prop where
  stands : ∀ other, t.get? other = if id = other then some stream else r.get? other
  free : ∀ other ∈ t.free.ids, other ∈ r.free.ids
  waits : ∀ other ∈ r.free.ids, r.get? other = none → id ≠ other → other ∈ t.free.ids
  next : r.next ≤ t.next
  passed : ∀ other, r.next ≤ other.toNat → other.toNat < t.next → id ≠ other → r.get? other ≠ none

theorem stores_add {build : UInt32 → α} (h : r.add build = some (id, t)) :
    Stores id (build id) r t := by
  have hstands := (add_some h).2.2
  obtain ⟨allocated, halloc, rfl⟩ := add_cases h
  obtain ⟨hnext, hpassed⟩ := passed_allocate halloc
  exact ⟨hstands, fun _ => mem_free_of_mem_allocate halloc, fun _ => mem_free_allocate halloc,
    hnext, hpassed⟩

theorem stores_insert (r : Registry α) (id : UInt32) (stream : α) :
    Stores id stream r (r.insert id stream) where
  stands := get?_insert r id stream
  free _ hmem := hmem
  waits _ hmem _ _ := hmem
  next := Nat.le_refl _
  passed _ hge hlt := absurd hlt (Nat.not_lt.mpr hge)

/-- An id that has no stream now had none before. -/
theorem Stores.unused {stream : α} (h : Stores id stream r t) {other : UInt32}
    (hunused : t.get? other = none) : r.get? other = none ∧ id ≠ other := by
  rw [h.stands] at hunused
  split at hunused
  · cases hunused
  · next hne => exact ⟨hunused, hne⟩

theorem Removes.unused (h : Removes id r t) {other : UInt32} (hne : id ≠ other)
    (hunused : t.get? other = none) : r.get? other = none := by
  rw [← hunused, h.stands, if_neg hne]

/-! ## What the counter has passed -/

/-- What the counter has passed has a stream or waits to be handed out again. -/
structure Counted (r : Registry α) : Prop where
  one_le_next : 1 ≤ r.next
  passed : ∀ id, 1 ≤ id.toNat → id.toNat < r.next → r.get? id = none → id ∈ r.free.ids

namespace Counted

theorem new : Counted ({} : Registry α) where
  one_le_next := Nat.le_refl _
  passed _ hone hlt := absurd hlt (Nat.not_lt.mpr hone)

theorem stored (h : Counted r) {stream : α} (hstores : Stores id stream r t) : Counted t where
  one_le_next := Nat.le_trans h.one_le_next hstores.next
  passed other hone hlt hunused := by
    obtain ⟨hnone, hne⟩ := hstores.unused hunused
    rcases Nat.lt_or_ge other.toNat r.next with hpast | hnew
    · exact hstores.waits other (h.passed other hone hpast hnone) hnone hne
    · exact absurd hnone (hstores.passed other hnew hlt hne)

theorem removed (h : Counted r) (hremoves : Removes id r t) : Counted t where
  one_le_next := hremoves.next ▸ h.one_le_next
  passed other hone hlt hunused := by
    rw [hremoves.free]
    rcases Decidable.em (id = other) with rfl | hne
    · exact .inl rfl
    · exact .inr (h.passed other hone (hremoves.next ▸ hlt) (hremoves.unused hne hunused))

/-- Any id without a stream can be handed out, but zero and the largest one. -/
theorem hasUnused (h : Counted r) (hone : 1 ≤ id.toNat) (hend : id.toNat < endOfIds)
    (hunused : r.get? id = none) : r.HasUnused := by
  rcases Nat.lt_or_ge id.toNat r.next with hlt | hge
  · exact ⟨id, hunused, .inl (h.passed id hone hlt hunused)⟩
  · exact ⟨id, hunused, .inr ⟨hge, hend⟩⟩

end Counted

/-! ## What has happened -/

/-- What a registry says is what has happened to it. -/
structure Recorded (r : Registry α) (log : List (Event α)) : Prop extends Counted r where
  get?_eq : ∀ id, r.get? id = standing id log
  kept : .removed controlMessageStreamId ∉ log
  /-- Only ids that a stream was removed from wait to be handed out again. -/
  free : ∀ id ∈ r.free.ids, .removed id ∈ log
  /-- Each of those does while it has no stream. -/
  waiting : ∀ id, .removed id ∈ log → r.get? id = none → id ∈ r.free.ids

theorem recorded_new : Recorded ({} : Registry α) [] where
  toCounted := .new
  get?_eq _ := rfl
  kept := List.not_mem_nil
  free _ hid := absurd hid List.not_mem_nil
  waiting _ hid := absurd hid List.not_mem_nil

namespace Recorded

theorem control (h : Recorded r log) : controlMessageStreamId ∉ r.free.ids :=
  fun hmem => h.kept (h.free _ hmem)

theorem mem_free_iff (h : Recorded r log) (id : UInt32) :
    id ∈ r.free.ids ∧ r.get? id = none ↔ Vacated log id := by
  constructor
  · rintro ⟨hfree, hunused⟩
    exact ⟨h.free id hfree, (h.get?_eq id).symm.trans hunused⟩
  · rintro ⟨hremoved, hunused⟩
    have hnone := (h.get?_eq id).trans hunused
    exact ⟨h.waiting id hremoved hnone, hnone⟩

theorem due (h : Recorded r log) (halloc : r.allocate = some (id, t)) : Due log id := by
  have hnone := (allocate_some halloc).1
  have hunused := (h.get?_eq id).symm.trans hnone
  have hfresh (hvacated : ∀ other, ¬Vacated log other) (stream : α) : .added id stream ∉ log :=
    fun hmem => hvacated id ⟨removed_mem_of_standing hmem hunused, hunused⟩
  rcases allocate_cases r with ⟨_, hfree, hfind⟩ | ⟨hused, ⟨n, hnew, hfirst⟩ | ⟨hfails, -⟩⟩
  · cases hfree.symm.trans halloc
    have hmem := List.mem_of_find?_eq_some hfind
    have hnonzero : id ≠ 0 := by
      rintro rfl
      exact h.control hmem
    refine ⟨hnonzero, hunused, fun other hother => ?_, hfresh⟩
    obtain ⟨hother, hnone'⟩ := (h.mem_free_iff other).mpr hother
    exact ⟨(h.mem_free_iff id).mp ⟨hmem, hnone⟩,
      Table.le_of_find?_ids hfind hother (by simpa [Table.contains, get?] using hnone')⟩
  · cases hnew.symm.trans halloc
    obtain ⟨hle, hend, -⟩ := firstUnused_passes hfirst
    refine ⟨fun heq => ?_, hunused, fun other hother => ?_, hfresh⟩
    · have hzero := congrArg UInt32.toNat heq
      rw [toNat_ofNat_of_lt hend] at hzero
      exact absurd (Nat.le_trans h.one_le_next hle) (by rw [hzero]; decide)
    · obtain ⟨hother, hnone'⟩ := (h.mem_free_iff other).mpr hother
      exact absurd hnone' (hused other hother)
  · cases hfails.symm.trans halloc

theorem stored (h : Recorded r log) {event : Event α} {stream : α}
    (hevent : event.stream? = some stream) (hstores : Stores event.id stream r t) :
    Recorded t (event :: log) := by
  have hold {other : UInt32} (hmem : .removed other ∈ event :: log) : .removed other ∈ log := by
    rcases List.mem_cons.mp hmem with rfl | hmem
    · cases hevent
    · exact hmem
  refine ⟨h.toCounted.stored hstores, ?get?_eq, ?kept, ?free, ?waiting⟩
  case get?_eq =>
    intro other
    rw [hstores.stands, standing_cons, h.get?_eq, hevent]
  case kept => exact fun hmem => h.kept (hold hmem)
  case free =>
    exact fun other hmem => List.mem_cons_of_mem _ (h.free other (hstores.free other hmem))
  case waiting =>
    intro other hmem hunused
    obtain ⟨hnone, hne⟩ := hstores.unused hunused
    exact hstores.waits other (h.waiting other (hold hmem) hnone) hnone hne

theorem removed (h : Recorded r log) (hremoves : Removes id r t) :
    Recorded t (.removed id :: log) := by
  refine ⟨h.toCounted.removed hremoves, ?get?_eq, ?kept, ?free, ?waiting⟩
  case get?_eq =>
    intro other
    rw [hremoves.stands, standing_cons, h.get?_eq]
    rfl
  case kept =>
    intro hmem
    rcases List.mem_cons.mp hmem with heq | hmem
    · cases heq
      exact hremoves.notControl rfl
    · exact h.kept hmem
  case free =>
    intro other hmem
    rcases (hremoves.free other).mp hmem with rfl | hmem
    · exact List.mem_cons_self
    · exact List.mem_cons_of_mem _ (h.free other hmem)
  case waiting =>
    intro other hmem hunused
    rw [hremoves.free]
    rcases List.mem_cons.mp hmem with heq | hmem
    · cases heq
      exact .inl rfl
    · rcases Decidable.em (id = other) with rfl | hne
      · exact .inl rfl
      · exact .inr (h.waiting other hmem (hremoves.unused hne hunused))

end Recorded

/-! ## All calls -/

/-- Carries out a request, and notes what has come of it. -/
def serve (a : Registry α × List (Event α)) : Request α → Registry α × List (Event α)
  | .add build =>
    match a.1.add build with
    | some (id, r) => (r, .added id (build id) :: a.2)
    | none => a
  | .insert id stream => (a.1.insert id stream, .inserted id stream :: a.2)
  | .remove id =>
    match a.1.remove id with
    | (some _, r) => (r, .removed id :: a.2)
    | (none, r) => (r, a.2)

/-- The requests one after the other. -/
def serveAll (requests : List (Request α)) : Registry α × List (Event α) :=
  requests.foldl serve ({}, [])

theorem recorded_serve (h : Recorded r log) (request : Request α) :
    Recorded (serve (r, log) request).1 (serve (r, log) request).2 := by
  cases request with
  | add build =>
    cases hadd : r.add build with
    | none =>
      simp only [serve, hadd]
      exact h
    | some added =>
      simp only [serve, hadd]
      exact h.stored rfl (stores_add hadd)
  | insert id stream => exact h.stored rfl (stores_insert r id stream)
  | remove id =>
    cases hremove : r.remove id with
    | mk removed t =>
      cases removed with
      | none =>
        simp only [serve, hremove]
        rw [remove_none hremove]
        exact h
      | some stream =>
        simp only [serve, hremove]
        exact h.removed (remove_some hremove)

theorem recorded_foldl_serve (h : Recorded r log) (requests : List (Request α)) :
    Recorded (requests.foldl serve (r, log)).1 (requests.foldl serve (r, log)).2 := by
  induction requests generalizing r log with
  | nil => exact h
  | cons request requests ih => exact ih (recorded_serve h request)

/-- After any requests to a new registry: what stands under an id is what was stored there last and
not removed since. The next stream that is added gets the id that is due and is the only change to
the streams; there is none for it only when every id has a stream. A removal takes the stream of an
id and nothing else, except that the control stream stays. -/
theorem message_stream_ids_in_turn (requests : List (Request α)) :
    let a := serveAll requests
    let r := a.1
    let log := a.2
    (∀ id, r.get? id = standing id log) ∧
      (∀ build, (∃ id t, r.add build = some (id, t) ∧ Due log id ∧
          ∀ other, t.get? other = if id = other then some (build id) else r.get? other) ∨
        r.add build = none ∧ ∀ id, 1 ≤ id.toNat → id.toNat < endOfIds → standing id log ≠ none) ∧
      (∀ id stream other, (r.insert id stream).get? other
        = if id = other then some stream else r.get? other) ∧
      (∀ id, id ≠ controlMessageStreamId → (r.remove id).1 = standing id log ∧
        ∀ other, (r.remove id).2.get? other = if id = other then none else r.get? other) ∧
      r.remove controlMessageStreamId = (none, r) ∧ .removed controlMessageStreamId ∉ log := by
  intro a r log
  have h : Recorded r log := recorded_foldl_serve recorded_new requests
  refine ⟨h.get?_eq, fun build => ?_, get?_insert r,
    fun id hid => ⟨?_, get?_remove hid⟩, if_pos rfl, h.kept⟩
  · cases hadd : r.add build with
    | none =>
      refine .inr ⟨rfl, fun id hone hend hunused => ?_⟩
      exact add_eq_none_iff.mp hadd (h.hasUnused hone hend ((h.get?_eq id).trans hunused))
    | some added =>
      obtain ⟨allocated, halloc, -⟩ := add_cases hadd
      exact .inl ⟨_, _, rfl, h.due halloc, (add_some hadd).2.2⟩
  · rw [fst_remove hid, h.get?_eq]

end RtmpEndpoint.Registry
