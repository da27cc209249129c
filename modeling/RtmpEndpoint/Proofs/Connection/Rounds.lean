import RtmpEndpoint.Proofs.Connection.Framing

/-!
# How long a receiver goes on

A receiver goes on with what is in its buffer until a step waits or fails. A step can go on without
a byte, so it is not the buffer alone that says when this ends. But only the body of an empty
message is nothing to take, and what comes after it is a basic header. So there are no more than two
steps for each byte, and two more.
-/

namespace RtmpEndpoint

namespace Receiver

variable {r s t : Receiver} {n : Nat} {next : ReadStage} {taken rest : Bytes}
  {completes : Option Payload} {b : Chunk.Assembler}

/-! ## Steps -/

/-- The bytes that a step takes off the buffer, unless it waits or finds that it cannot go on. -/
def taken? (r : Receiver) : Option Nat :=
  match (r.link.assembler.step r.stage r.buffer.bytes).1 with
  | .ok (.advanced n _) | .ok (.completed n _) => some n
  | .ok .needMoreData | .error _ => none

/-- A step stays within the buffer. -/
structure Contained (r : Receiver) : Prop where
  /-- It does what it does reading by place. -/
  slices : r.link.assembler.stepAt? r.stage r.buffer.bytes
    = some (r.link.assembler.step r.stage r.buffer.bytes)
  taken_le : ∀ n, r.taken? = some n → n ≤ r.buffer.size
  drops : (step r).2.buffer.bytes = r.buffer.bytes.drop (r.taken?.getD 0)
  /-- It goes on without a byte at the body of an empty message, and nowhere else. -/
  nothing_iff : r.taken? = some 0 ↔
    r.stage = .completeMessage ∧ r.link.assembler.current.header.length = 0
  empty : r.taken? = some 0 → ∃ payload, r.completes? = some payload ∧ payload.data = []

theorem taken?_of_takes (hbytes : r.buffer.bytes = taken ++ rest)
    (htakes : r.link.assembler.Takes r.stage taken next completes b) :
    r.taken? = some taken.length := by
  rw [taken?, hbytes, htakes.step_eq]
  cases completes <;> rfl

theorem takes_of_taken (h : r.taken? = some n) :
    ∃ taken rest next completes b, r.buffer.bytes = taken ++ rest ∧ n = taken.length ∧
      r.link.assembler.Takes r.stage taken next completes b := by
  cases hs : r.link.assembler.step r.stage r.buffer.bytes with
  | mk progress assembler =>
    rw [taken?, hs] at h
    cases progress with
    | error error => cases h
    | ok progress =>
      cases progress with
      | needMoreData => cases h
      | advanced n next =>
        cases h
        obtain ⟨taken, rest, hbytes, hn, htakes⟩ := Chunk.Assembler.takes_of_advanced hs
        exact ⟨taken, rest, _, _, _, hbytes, hn, htakes⟩
      | completed n payload =>
        cases h
        obtain ⟨taken, rest, hbytes, hn, htakes⟩ := Chunk.Assembler.takes_of_completed hs
        exact ⟨taken, rest, _, _, _, hbytes, hn, htakes⟩

/-- A step that waits or cannot go on leaves the buffer, and is the last one. -/
theorem step_untaken (hp : r.phase = .chunking) (h : r.taken? = none) :
    (step r).2.buffer = r.buffer ∧ ∀ n, (step r).1 ≠ .ok (some n) := by
  rw [step_chunking hp]
  rw [taken?] at h
  cases hs : r.link.assembler.step r.stage r.buffer.bytes with
  | mk progress assembler =>
    rw [hs] at h
    cases progress with
    | error error => exact ⟨rfl, by rintro n ⟨⟩⟩
    | ok progress =>
      cases progress with
      | needMoreData => exact ⟨rfl, by rintro n ⟨⟩⟩
      | advanced n next => cases h
      | completed n payload => cases h

/-- A step that takes a part takes it off the buffer, also if the message that it completes ends
everything. -/
theorem step_takes (hp : r.phase = .chunking) (hbytes : r.buffer.bytes = taken ++ rest)
    (htakes : r.link.assembler.Takes r.stage taken next completes b) :
    r.completes? = completes ∧ (step r).2.buffer = r.buffer.drop taken.length ∧
      (step r).2.stage = next ∧ ∀ n, (step r).1 = .ok (some n) → n = taken.length := by
  rw [completes?_chunking hp, step_chunking hp, hbytes, htakes.step_eq]
  cases completes with
  | none => exact ⟨rfl, rfl, rfl, by rintro n ⟨⟩; rfl⟩
  | some payload =>
    obtain rfl := htakes.next_of_some
    dsimp only [Chunk.Progress.of, afterPart]
    cases Link.receive payload { r.link with assembler := b } with
    | mk result link =>
      cases result with
      | error error => exact ⟨rfl, rfl, rfl, by rintro n ⟨⟩⟩
      | ok => exact ⟨rfl, rfl, rfl, by rintro n ⟨⟩; rfl⟩

theorem taken_le (h : r.taken? = some n) : n ≤ r.buffer.size := by
  obtain ⟨taken, rest, next, completes, b, hbytes, rfl, htakes⟩ := takes_of_taken h
  rw [← Buffer.length_bytes, hbytes, List.length_append]
  exact Nat.le_add_right _ _

/-- What a step takes is off the buffer, and nothing else. -/
theorem bytes_step (hp : r.phase = .chunking) :
    (step r).2.buffer.bytes = r.buffer.bytes.drop (r.taken?.getD 0) := by
  cases htaken : r.taken? with
  | none =>
    rw [(step_untaken hp htaken).1]
    rfl
  | some n =>
    obtain ⟨taken, rest, next, completes, b, hbytes, rfl, htakes⟩ := takes_of_taken htaken
    obtain ⟨-, hbuffer, -⟩ := step_takes hp hbytes htakes
    rw [hbuffer]
    rfl

/-- Only the body of an empty message is nothing to take, and it is taken whatever the buffer
holds. -/
theorem Framing.nothing_iff (h : Framing r) : r.taken? = some 0 ↔
    r.stage = .completeMessage ∧ r.link.assembler.current.header.length = 0 := by
  obtain ⟨chunk, history, hsound⟩ := h.reached.sound
  constructor
  · intro htaken
    obtain ⟨taken, rest, next, completes, b, hbytes, hn, htakes⟩ := takes_of_taken htaken
    exact (htakes.eq_nil_iff hsound).mp (List.eq_nil_of_length_eq_zero hn.symm)
  · rintro ⟨hs, hempty⟩
    rw [hs] at hsound
    obtain ⟨payload, b, htakes⟩ := Chunk.Assembler.takes_nothing hsound hempty
    rw [← hs] at htakes
    have hbytes : r.buffer.bytes = [] ++ r.buffer.bytes := rfl
    exact taken?_of_takes hbytes htakes

theorem Framing.completes_of_nothing (h : Framing r) (htaken : r.taken? = some 0) :
    ∃ payload, r.completes? = some payload ∧ payload.data = [] := by
  obtain ⟨chunk, history, hsound⟩ := h.reached.sound
  obtain ⟨taken, rest, next, completes, b, hbytes, hn, htakes⟩ := takes_of_taken htaken
  obtain rfl : taken = [] := List.eq_nil_of_length_eq_zero hn.symm
  rw [(step_takes h.phase hbytes htakes).1]
  exact htakes.completes_of_nil hsound

theorem Framing.contained (h : Framing r) : Contained r where
  slices := by
    obtain ⟨chunk, history, hsound⟩ := h.reached.sound
    exact Chunk.Assembler.stepAt?_eq hsound _
  taken_le _ := taken_le
  drops := bytes_step h.phase
  nothing_iff := h.nothing_iff
  empty := h.completes_of_nothing

/-- A step that leads on takes what it says, and leaves less to go on with. -/
theorem Framing.lighter (h : Framing r) (hs : Receiver.step r = (.ok (some n), s)) :
    r.taken? = some n ∧
      2 * s.buffer.size + s.stage.weight < 2 * r.buffer.size + r.stage.weight := by
  obtain ⟨chunk, history, hsound⟩ := h.reached.sound
  cases htaken : r.taken? with
  | none =>
    have hlast := (step_untaken h.phase htaken).2 n
    rw [hs] at hlast
    exact absurd rfl hlast
  | some m =>
    have hle := taken_le htaken
    obtain ⟨taken, rest, next, completes, b, hbytes, rfl, htakes⟩ := takes_of_taken htaken
    obtain ⟨-, hbuffer, hstage, hn⟩ := step_takes h.phase hbytes htakes
    have hweight := htakes.weight_lt hsound
    rw [hs] at hbuffer hstage hn
    obtain rfl := hn n rfl
    dsimp only at hbuffer hstage
    rw [hbuffer, hstage, Buffer.size_drop]
    exact ⟨rfl, by omega⟩

/-! ## Rounds -/

/-- The receiver before each step, until one waits or fails. -/
def rounds (r : Receiver) : List Receiver :=
  match _h : step r with
  | (.ok (some _), s) => r :: rounds s
  | (.ok none, _) => [r]
  | (.error _, _) => [r]
termination_by (r.buffer.size, r.stage.rank)
decreasing_by exact step_some _h

/-- The bytes that are taken in these rounds. -/
def takenIn : List Receiver → Nat
  | [] => 0
  | r :: rest => r.taken?.getD 0 + takenIn rest

/-- The step of a receiver waits or fails. -/
def Stops (r : Receiver) : Prop := (step r).1 = .ok none ∨ ∃ error, (step r).1 = .error error

/-- The last round is the first one whose step does not lead on, and what comes of a piece is what
comes of that step. -/
structure EndsAt (r : Receiver) (before : List Receiver) (last : Receiver) : Prop where
  rounds_eq : rounds r = before ++ [last]
  leads : ∀ t ∈ before, ¬ t.Stops
  stops : last.Stops
  takenIn_le : takenIn before ≤ r.buffer.size
  left : last.buffer.bytes = r.buffer.bytes.drop (takenIn before)
  result : ∀ framed, processOnto framed r = processOnto (framed + takenIn before) last

theorem rounds_some (hs : step r = (.ok (some n), s)) : rounds r = r :: rounds s := by
  rw [rounds]
  split <;> simp_all

theorem not_stops (hs : step r = (.ok (some n), s)) : ¬ r.Stops := by
  rintro (hwaits | ⟨error, hfails⟩)
  · rw [hs] at hwaits
    cases hwaits
  · rw [hs] at hfails
    cases hfails

theorem rounds_of_stops (h : r.Stops) : rounds r = [r] := by
  rw [rounds]
  split
  · next hs => exact absurd h (not_stops hs)
  · rfl
  · rfl

theorem endsAt_here (h : r.Stops) : EndsAt r [] r where
  rounds_eq := rounds_of_stops h
  leads := by rintro t ⟨⟩
  stops := h
  takenIn_le := Nat.zero_le _
  left := rfl
  result _ := rfl

/-- A step that leads on is one more round. -/
theorem EndsAt.on {before : List Receiver} {last : Receiver} (h : EndsAt s before last)
    (hframing : Framing r) (hs : step r = (.ok (some n), s)) : EndsAt r (r :: before) last := by
  obtain ⟨htaken, -⟩ := hframing.lighter hs
  have hle := taken_le htaken
  have hdrops := bytes_step hframing.phase
  rw [hs, htaken, Option.getD_some] at hdrops
  have hsize : s.buffer.size = r.buffer.size - n := by
    rw [← Buffer.length_bytes, hdrops, List.length_drop, Buffer.length_bytes]
  have hin : takenIn (r :: before) = n + takenIn before := by
    rw [takenIn, htaken, Option.getD_some]
  -- What the later rounds take is measured on the buffer of `s`, which is that of `r` without `n`.
  refine ⟨?_, ?_, h.stops, ?_, ?_, fun framed => ?_⟩
  · rw [rounds_some hs, h.rounds_eq, List.cons_append]
  · intro t ht
    rcases List.mem_cons.mp ht with rfl | ht
    · exact not_stops hs
    · exact h.leads t ht
  · have hrest := h.takenIn_le
    omega
  · rw [h.left, hdrops, List.drop_drop, hin]
  · rw [processOnto_some framed hs, h.result, hin, Nat.add_assoc]

theorem Framing.endsAt (h : Framing r) : ∃ before last, EndsAt r before last := by
  fun_induction rounds r with
  | case1 r n s hs ih =>
    obtain ⟨before, last, hends⟩ := ih (h.next hs)
    exact ⟨r :: before, last, hends.on h hs⟩
  | case2 r s hs => exact ⟨[], r, endsAt_here (.inl (by rw [hs]))⟩
  | case3 r error s hs => exact ⟨[], r, endsAt_here (.inr ⟨error, by rw [hs]⟩)⟩

/-- What a receiver weighs goes down from round to round, so it bounds how many there are. -/
theorem Framing.length_rounds_le (h : Framing r) :
    (rounds r).length ≤ 2 * r.buffer.size + r.stage.weight + 1 := by
  fun_induction rounds r with
  | case1 r n s hs ih =>
    obtain ⟨-, hlighter⟩ := h.lighter hs
    have hrest := ih (h.next hs)
    rw [List.length_cons]
    omega
  | case2 r s hs => exact Nat.succ_le_succ (Nat.zero_le _)
  | case3 r error s hs => exact Nat.succ_le_succ (Nat.zero_le _)

theorem Framing.of_mem_rounds (h : Framing r) (ht : t ∈ rounds r) : Framing t := by
  fun_induction rounds r with
  | case1 r n s hs ih =>
    rcases List.mem_cons.mp ht with rfl | ht
    · exact h
    · exact ih (h.next hs) ht
  | case2 r s hs => exact List.mem_singleton.mp ht ▸ h
  | case3 r error s hs => exact List.mem_singleton.mp ht ▸ h

/-! ## As many rounds as there can be -/

/-- In the buffer there are chunks of type 3 on chunk stream 3, as many as given, and nothing has
come in of the message that the next of them belongs to. -/
structure Repeats (r : Receiver) (n : Nat) : Prop where
  phase : r.phase = .chunking
  bytes : r.buffer.bytes = List.replicate n 0xc3
  pending : r.link.assembler.pending 3 = none

/-- The body of an empty message comes next. -/
structure AtEmptyBody (r : Receiver) (n : Nat) : Prop extends Repeats r n where
  stage : r.stage = .completeMessage
  csid : r.link.assembler.current.csid = 3
  header : r.link.assembler.current.header = .blank

/-- A chunk with another empty message comes next. -/
structure AtRepetition (r : Receiver) (n : Nat) : Prop extends Repeats r n where
  stage : r.stage = .firstByteBasicHeader
  header : r.link.assembler.headers.get? 3 = some .blank

theorem AtEmptyBody.step (h : AtEmptyBody r n) :
    ∃ s, Receiver.step r = (.ok (some 0), s) ∧ AtRepetition s n := by
  have hreceived : r.link.assembler.received.size = 0 := by
    rw [← Buffer.length_bytes, Chunk.Assembler.bytes_received, h.csid, h.pending]
    rfl
  have hwhole : ([] : Bytes).length = r.link.assembler.bodySize := by
    rw [Chunk.Assembler.bodySize, h.header, hreceived]
    exact (Nat.zero_min _).symm
  have hfull : r.link.assembler.received.size + ([] : Bytes).length
      = r.link.assembler.current.header.length := by
    rw [hreceived, h.header]
    rfl
  have htakes := Chunk.Assembler.Takes.last hwhole hfull
  have hpending := r.link.assembler.pending_finish 3
  have hheader := r.link.assembler.get?_headers_finish 3
  rw [if_pos h.csid] at hpending hheader
  rw [h.header] at htakes hheader
  rw [step_chunking h.phase, h.stage, ← List.nil_append r.buffer.bytes, htakes.step_eq]
  exact ⟨_, rfl, ⟨h.phase, h.bytes, hpending⟩, rfl, hheader⟩

theorem AtEmptyBody.push (h : AtEmptyBody r 0) (n : Nat) :
    AtEmptyBody (r.push (List.replicate n 0xc3)) n where
  phase := h.phase
  bytes := by rw [Receiver.push, Buffer.bytes_push, h.bytes, List.replicate_zero, List.nil_append]
  pending := h.pending
  stage := h.stage
  csid := h.csid
  header := h.header

theorem AtRepetition.step (h : AtRepetition r (n + 1)) :
    ∃ s, Receiver.step r = (.ok (some 1), s) ∧ AtEmptyBody s n := by
  have hread (rest : Bytes) : Chunk.readBasicHeader? ([0xc3] ++ rest) = some (.type3, 3, 1) := rfl
  have hknown : r.link.assembler.start? .type3 3 = some .blank := h.header
  have htakes : r.link.assembler.Takes .firstByteBasicHeader [0xc3] .completeMessage none _ :=
    .basicHeader hread hknown
  have hbytes : r.buffer.bytes = [0xc3] ++ List.replicate n 0xc3 := h.bytes
  rw [step_chunking h.phase, h.stage, hbytes, htakes.step_eq]
  refine ⟨_, rfl, ⟨h.phase, ?_, h.pending⟩, rfl, rfl, rfl⟩
  exact congrArg (List.drop 1) hbytes

theorem AtRepetition.stops (h : AtRepetition r 0) : r.Stops := by
  have hbytes : r.buffer.bytes = [] := h.bytes
  rw [Stops, step_chunking h.phase, h.stage, hbytes]
  exact .inl rfl

/-- Each of the bytes is a round itself, and so is the body behind it. -/
theorem AtEmptyBody.length_rounds (h : AtEmptyBody r n) : (rounds r).length = 2 * n + 2 := by
  induction n generalizing r with
  | zero =>
    obtain ⟨s, hs, hnext⟩ := h.step
    rw [rounds_some hs, rounds_of_stops hnext.stops]
    rfl
  | succ n ih =>
    obtain ⟨s, hs, hnext⟩ := h.step
    obtain ⟨t, ht, hbody⟩ := hnext.step
    rw [rounds_some hs, rounds_some ht, List.length_cons, List.length_cons, ih hbody]
    omega

/-- The handshake is over, and the body of an empty message comes next. -/
def beforeEmptyBody : Receiver :=
  (step (step (step (greeted.push (sevens.bytes ++ 3 :: List.replicate 11 0))).2).2).2

/-- There are as many empty messages behind it. -/
def emptyBodies (n : Nat) : Receiver := beforeEmptyBody.push (List.replicate n 0xc3)

theorem comesTo_emptyBodies (n : Nat) :
    ComesTo (Connection.accept {} sevens 65536).receiver (emptyBodies n) :=
  .on .start (.push (.step (.step (.step (.push (.step (.push .refl _)) _)))) _)

theorem atEmptyBody_emptyBodies (n : Nat) : AtEmptyBody (emptyBodies n) n := by
  have hruns : beforeEmptyBody.phase.isChunking = true ∧ beforeEmptyBody.buffer.bytes = [] ∧
      beforeEmptyBody.link.assembler.pending 3 = none ∧
      beforeEmptyBody.stage = .completeMessage ∧
      beforeEmptyBody.link.assembler.current.csid = 3 ∧
      beforeEmptyBody.link.assembler.current.header = .blank := by
    decide +kernel
  obtain ⟨hphase, hbytes, hpending, hstage, hcsid, hheader⟩ := hruns
  have hbody : AtEmptyBody beforeEmptyBody 0 :=
    ⟨⟨Phase.eq_chunking hphase, hbytes, hpending⟩, hstage, hcsid, hheader⟩
  exact hbody.push n

/-- With a buffer of any size a receiver can be good for two rounds for each byte and two more. -/
theorem exists_most_rounds (n : Nat) :
    ∃ r, ComesTo (Connection.accept {} sevens 65536).receiver r ∧ r.phase = .chunking ∧
      r.buffer.size = n ∧ (rounds r).length = 2 * n + 2 := by
  have hbody := atEmptyBody_emptyBodies n
  refine ⟨emptyBodies n, comesTo_emptyBodies n, hbody.phase, ?_, hbody.length_rounds⟩
  rw [← Buffer.length_bytes, hbody.bytes, List.length_replicate]

/-! ## No more rounds -/

/-- Whatever is in the buffer, a receiver comes to a step that waits or fails, in no more than two
rounds for each byte and two more. Each of them stays within the buffer, also where it goes on
without a byte. -/
theorem ends_within_two_rounds_per_byte (h : Framing r) :
    (∃ before last, EndsAt r before last) ∧ (rounds r).length ≤ 2 * r.buffer.size + 2 ∧
      ∀ t ∈ rounds r, Contained t := by
  have hle := h.length_rounds_le
  have hweight := Chunk.Assembler.weight_le_one r.stage
  exact ⟨h.endsAt, by omega, fun t ht => (h.of_mem_rounds ht).contained⟩

/-- One empty message and three more make seven rounds that go on, and four of them take nothing. -/
theorem ends_within_two_rounds_per_byte_emptyBodies :
    Framing (emptyBodies 3) ∧ (emptyBodies 3).taken? = some 0 ∧
      (∃ before last, EndsAt (emptyBodies 3) before last ∧ before.length = 7) ∧
      (rounds (emptyBodies 3)).length = 8 ∧
      (rounds (emptyBodies 3)).length ≤ 2 * (emptyBodies 3).buffer.size + 2 ∧
      ∀ t ∈ rounds (emptyBodies 3), Contained t := by
  have hbody := atEmptyBody_emptyBodies 3
  have hframing := framing_of_comesTo (comesTo_emptyBodies 3) hbody.phase
  obtain ⟨⟨before, last, hends⟩, hle, hcontained⟩ := ends_within_two_rounds_per_byte hframing
  have hlength := hbody.length_rounds
  have hnothing := hframing.nothing_iff.mpr ⟨hbody.stage, by rw [hbody.header]; rfl⟩
  have hbefore : before.length = 7 := by
    rw [hends.rounds_eq, List.length_append] at hlength
    exact Nat.succ.inj hlength
  exact ⟨hframing, hnothing, ⟨before, last, hends, hbefore⟩, hlength, hle, hcontained⟩

end Receiver

end RtmpEndpoint
