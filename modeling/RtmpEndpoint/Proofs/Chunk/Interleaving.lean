import RtmpEndpoint.Proofs.Chunk.Splitting

/-!
# Interleaved chunk streams

Chunks of different chunk streams may be sent in any order. A reader puts the messages together all
the same, since what it knows of one chunk stream does not depend on the others.
-/

namespace RtmpEndpoint.Chunk

/-! ## Splitting several messages -/

/-- The chunks of several messages in the order they were produced. -/
def wireAll : (inputs : List (UInt32 × Payload)) → (chunkss : List (List Bytes)) → List WireChunk
  | (csid, payload) :: inputs, chunks :: chunkss =>
    wire csid payload chunks ++ wireAll inputs chunkss
  | _, _ => []

namespace Splitter

variable {splitter after : Splitter} {csid : UInt32} {payload : Payload}
  {inputs : List (UInt32 × Payload)} {chunkss : List (List Bytes)}

theorem splitAll_cons (splitter : Splitter) (inputs : List (UInt32 × Payload))
    (h : Fits csid payload) :
    splitter.splitAll ((csid, payload) :: inputs)
      = match (splitter.afterMessage csid payload).splitAll inputs with
        | .error error => .error error
        | .ok (more, after) => .ok (splitter.chunksFor csid payload :: more, after) := by
  cases hmore : (splitter.afterMessage csid payload).splitAll inputs with
  | error error => simp only [splitAll, split_of_fits splitter h, hmore]
  | ok result => simp only [splitAll, split_of_fits splitter h, hmore]

theorem splitAll_cons_ok (h : splitter.splitAll ((csid, payload) :: inputs) = .ok (chunkss, after)) :
    ∃ more, Fits csid payload ∧ chunkss = splitter.chunksFor csid payload :: more ∧
      (splitter.afterMessage csid payload).splitAll inputs = .ok (more, after) := by
  cases hsplit : splitter.split csid payload with
  | error error => simp [splitAll, hsplit] at h
  | ok result =>
    have hfits := exists_split_iff.mp ⟨result, hsplit⟩
    rw [splitAll_cons splitter inputs hfits] at h
    cases hmore : (splitter.afterMessage csid payload).splitAll inputs with
    | error error => simp [hmore] at h
    | ok more =>
      simp only [hmore, Except.ok.injEq, Prod.mk.injEq] at h
      exact ⟨more.1, hfits, h.1.symm, by rw [← h.2]⟩

/-- Messages are taken when each of them fits. -/
theorem exists_splitAll_iff : (∃ result, splitter.splitAll inputs = .ok result) ↔
    ∀ input ∈ inputs, Fits input.1 input.2 := by
  induction inputs generalizing splitter with
  | nil => simp [splitAll]
  | cons input inputs ih =>
    rw [List.forall_mem_cons]
    constructor
    · rintro ⟨⟨chunkss, after⟩, h⟩
      obtain ⟨more, hfits, -, hmore⟩ := splitAll_cons_ok h
      exact ⟨hfits, ih.mp ⟨_, hmore⟩⟩
    · rintro ⟨hfits, hrest⟩
      have htail : ∃ result, (splitter.afterMessage input.1 input.2).splitAll inputs = .ok result :=
        ih.mpr hrest
      obtain ⟨⟨more, after⟩, hmore⟩ := htail
      refine ⟨(splitter.chunksFor input.1 input.2 :: more, after), ?_⟩
      rw [splitAll_cons splitter inputs hfits, hmore]

theorem length_splitAll (h : splitter.splitAll inputs = .ok (chunkss, after)) :
    chunkss.map List.length = inputs.map fun input =>
      max 1 ((input.2.data.length + splitter.maxSize.value - 1) / splitter.maxSize.value) := by
  induction inputs generalizing splitter chunkss with
  | nil =>
    cases h
    rfl
  | cons input inputs ih =>
    obtain ⟨more, -, rfl, hmore⟩ := splitAll_cons_ok h
    rw [List.map_cons, List.map_cons, length_chunksFor, ih hmore]
    rfl

theorem bytes_wireAll (h : splitter.splitAll inputs = .ok (chunkss, after)) :
    (wireAll inputs chunkss).map (·.bytes) = chunkss.flatten := by
  induction inputs generalizing splitter chunkss with
  | nil =>
    cases h
    rfl
  | cons input inputs ih =>
    obtain ⟨more, -, rfl, hmore⟩ := splitAll_cons_ok h
    rw [wireAll, List.map_append, bytes_wire, ih hmore, List.flatten_cons]

/-- In the order of production the messages are completed one by one. -/
theorem completes_wireAll (h : splitter.splitAll inputs = .ok (chunkss, after)) :
    (wireAll inputs chunkss).filterMap (·.completes) = inputs.map (·.2) := by
  induction inputs generalizing splitter chunkss with
  | nil =>
    cases h
    rfl
  | cons input inputs ih =>
    obtain ⟨more, -, rfl, hmore⟩ := splitAll_cons_ok h
    rw [wireAll, List.filterMap_append, completes_wire _ _ (splitter.chunksFor_ne_nil _ _), ih hmore]
    rfl

/-- The chunks of one message are all on its chunk stream. -/
theorem filter_wire (csid other : UInt32) (payload : Payload) (chunks : List Bytes) :
    (wire csid payload chunks).filter (·.csid = other)
      = if csid = other then wire csid payload chunks else [] := by
  split
  · next h =>
    rw [List.filter_eq_self]
    intro chunk hmem
    simp [csid_of_mem_wire hmem, h]
  · next h =>
    rw [List.filter_eq_nil_iff]
    intro chunk hmem
    simp [csid_of_mem_wire hmem, h]

/-- On every chunk stream a reader that has the writer's last header waits for what is produced
there. -/
theorem awaits_wireAll (h : splitter.splitAll inputs = .ok (chunkss, after)) (csid : UInt32) :
    Awaits splitter.maxSize csid (splitter.headers.get? csid) none
      ((wireAll inputs chunkss).filter (·.csid = csid)) (after.headers.get? csid) := by
  induction inputs generalizing splitter chunkss with
  | nil =>
    cases h
    exact .done _
  | cons input inputs ih =>
    obtain ⟨sent, payload⟩ := input
    obtain ⟨more, hfits, rfl, hmore⟩ := splitAll_cons_ok h
    have hnext := ih hmore
    rw [wireAll, List.filter_append, filter_wire]
    rw [afterMessage, Table.get?_insert] at hnext
    by_cases hc : sent = csid
    · subst hc
      rw [if_pos rfl] at hnext ⊢
      exact splitter.awaits_chunksFor hfits hnext
    · rw [if_neg hc] at hnext ⊢
      exact hnext

end Splitter

/-! ## Interleaving -/

/-- The chunks in another order that keeps the order within each chunk stream. -/
def Interleaves (chunks produced : List WireChunk) : Prop :=
  ∀ csid, chunks.filter (·.csid = csid) = produced.filter (·.csid = csid)

theorem Interleaves.perm {chunks produced : List WireChunk} (h : Interleaves chunks produced) :
    chunks.Perm produced := by
  rw [List.perm_iff_count]
  intro chunk
  have hcount (l : List WireChunk) :
      (l.filter (·.csid = chunk.csid)).count chunk = l.count chunk :=
    List.count_filter (by simp)
  rw [← hcount chunks, h chunk.csid, hcount]

/-- A reader that can take what is next on each chunk stream reads the chunks in whatever order
they come. -/
theorem Assembler.follow_interleaved {a : Assembler} {chunks : List WireChunk}
    {final : UInt32 → Option Header}
    (h : ∀ csid, a.Awaits csid (chunks.filter (·.csid = csid)) (final csid)) :
    ∃ b : Assembler, a.follow .none .firstByteBasicHeader (chunks.flatMap (·.bytes))
      = ⟨chunks.filterMap (·.completes), .firstByteBasicHeader, [], none, b⟩ := by
  induction chunks generalizing a with
  | nil => exact ⟨a, follow_nil _ a⟩
  | cons chunk chunks ih =>
    have hnext : a.Awaits chunk.csid (chunk :: chunks.filter (·.csid = chunk.csid))
        (final chunk.csid) := by
      have hc := h chunk.csid
      rw [List.filter_cons_of_pos (by simp)] at hc
      exact hc
    obtain ⟨b, hleaves, hawaits, hread⟩ := follow_chunk hnext
    have hrest : ∀ csid, b.Awaits csid (chunks.filter (·.csid = csid)) (final csid) := by
      intro csid
      by_cases hc : chunk.csid = csid
      · subst hc
        exact hawaits
      · have hother := h csid
        rw [List.filter_cons_of_neg (by simpa using hc)] at hother
        exact (hleaves.awaits hc _ _).mpr hother
    obtain ⟨last, hlast⟩ := ih hrest
    refine ⟨last, ?_⟩
    rw [List.flatMap_cons, hread, List.filterMap_cons]
    cases hcompletes : chunk.completes with
    | none => exact hlast
    | some payload => rw [resume_none_some, hlast, Reception.after]

/-! ## From a fresh writer to a fresh reader -/

theorem Size.ofNat?_eq_some {n : Nat} (hpos : 0 < n) (hle : n ≤ 0x7fffffff) :
    Size.ofNat? n = some ⟨n, hpos, hle⟩ := dif_pos ⟨hpos, hle⟩

/-- A fresh writer with this chunk size. -/
def Splitter.fresh (size : Size) : Splitter := { maxSize := size }

/-- A fresh reader with this chunk size. -/
def Assembler.fresh (size : Size) : Assembler := { maxSize := size }

theorem Assembler.awaits_fresh (size : Size) (csid : UInt32) (chunks : List WireChunk)
    (final : Option Header) :
    (Assembler.fresh size).Awaits csid chunks final
      ↔ Chunk.Awaits size csid ((Splitter.fresh size).headers.get? csid) none chunks final :=
  Iff.rfl

/-- Whatever messages a fresh writer takes, a fresh reader with the same chunk size gets them all
back from any interleaving of their chunks, each when its last chunk is there. -/
theorem run_interleaved (size : UInt32) (hpos : 0 < size) (hle : size ≤ 0x7fffffff) :
    ∃ splitter assembler,
      ({} : Splitter).setMaxSize size = .ok splitter ∧
      ({} : Assembler).setMaxSize size.toNat = .ok assembler ∧
      ∀ inputs : List (UInt32 × Payload),
        ((∃ result, splitter.splitAll inputs = .ok result) ↔
          ∀ input ∈ inputs, Splitter.Fits input.1 input.2) ∧
        ∀ chunkss after, splitter.splitAll inputs = .ok (chunkss, after) →
          chunkss.map List.length = inputs.map (fun input =>
            max 1 ((input.2.data.length + size.toNat - 1) / size.toNat)) ∧
          (wireAll inputs chunkss).map (·.bytes) = chunkss.flatten ∧
          ∀ chunks, Interleaves chunks (wireAll inputs chunkss) →
            let run := assembler.run .firstByteBasicHeader (chunks.flatMap (·.bytes))
            run.failure = none ∧ run.rest = [] ∧ run.stage = .firstByteBasicHeader ∧
              run.payloads = chunks.filterMap (·.completes) ∧
              run.payloads.Perm (inputs.map (·.2)) := by
  have hpos' : 0 < size.toNat := UInt32.lt_iff_toNat_lt.mp hpos
  have hle' : size.toNat ≤ 0x7fffffff := UInt32.le_iff_toNat_le.mp hle
  have hsize := Size.ofNat?_eq_some hpos' hle'
  refine ⟨.fresh ⟨size.toNat, hpos', hle'⟩, .fresh ⟨size.toNat, hpos', hle'⟩, ?_, ?_, ?_⟩
  · rw [Splitter.setMaxSize, hsize]
    rfl
  · rw [Assembler.setMaxSize, hsize]
    rfl
  · intro inputs
    constructor
    · exact Splitter.exists_splitAll_iff
    · intro chunkss after h
      refine ⟨Splitter.length_splitAll h, Splitter.bytes_wireAll h, ?_⟩
      intro chunks hchunks
      have hawaits : ∀ csid, (Assembler.fresh ⟨size.toNat, hpos', hle'⟩).Awaits csid
          (chunks.filter (·.csid = csid)) (after.headers.get? csid) := by
        intro csid
        rw [Assembler.awaits_fresh, hchunks csid]
        exact Splitter.awaits_wireAll h csid
      obtain ⟨b, hb⟩ := Assembler.follow_interleaved hawaits
      have hperm := hchunks.perm.filterMap (·.completes)
      rw [Splitter.completes_wireAll h] at hperm
      rw [← Assembler.reception_run] at hb
      have hpayloads : (Assembler.run _ _ _).payloads = _ := congrArg Reception.payloads hb
      refine ⟨congrArg Reception.failure hb, congrArg Reception.rest hb,
        congrArg Reception.stage hb, hpayloads, ?_⟩
      rw [hpayloads]
      exact hperm

/-- A message of two chunks and one of a single chunk on another chunk stream, whose timestamp needs
an extension. -/
def twoMessages : List (UInt32 × Payload) :=
  [(3, ⟨⟨5⟩, .audio, 1, [1, 2]⟩), (70, ⟨⟨0x1000000⟩, .video, 1, [3]⟩)]

theorem run_interleaved_twoMessages :
    ∃ splitter assembler chunkss after,
      ({} : Splitter).setMaxSize 1 = .ok splitter ∧
      ({} : Assembler).setMaxSize 1 = .ok assembler ∧
      splitter.splitAll twoMessages = .ok (chunkss, after) ∧
      chunkss.map List.length = [2, 1] ∧
      ∀ chunks, Interleaves chunks (wireAll twoMessages chunkss) →
        let run := assembler.run .firstByteBasicHeader (chunks.flatMap (·.bytes))
        run.failure = none ∧ run.rest = [] ∧
          run.payloads.Perm (twoMessages.map (·.2)) := by
  obtain ⟨splitter, assembler, hsplitter, hassembler, h⟩ :=
    run_interleaved 1 (by decide) (by decide)
  obtain ⟨haccepts, hruns⟩ := h twoMessages
  have hfits : ∀ input ∈ twoMessages, Splitter.Fits input.1 input.2 := by
    intro input hmem
    simp only [twoMessages, List.mem_cons, List.not_mem_nil, or_false] at hmem
    rcases hmem with rfl | rfl
    · exact ⟨⟨by decide, by decide⟩, by decide⟩
    · exact ⟨⟨by decide, by decide⟩, by decide⟩
  obtain ⟨⟨chunkss, after⟩, hsplit⟩ := haccepts.mpr hfits
  obtain ⟨hlength, -, hread⟩ := hruns chunkss after hsplit
  refine ⟨splitter, assembler, chunkss, after, hsplitter, hassembler, hsplit, hlength, ?_⟩
  intro chunks hchunks
  obtain ⟨hfailure, hrest, -, -, hperm⟩ := hread chunks hchunks
  exact ⟨hfailure, hrest, hperm⟩

end RtmpEndpoint.Chunk
