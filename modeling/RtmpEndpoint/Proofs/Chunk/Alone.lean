import Mathlib
import RtmpEndpoint.Proofs.Chunk.Interleaving
import RtmpEndpoint.Proofs.Chunk.Taking

/-!
# One chunk stream by itself

A run over whole chunks is cut into these chunks. Without the chunks of the other chunk streams the
messages of one of them are the same: its chunks find the same header and the same unfinished
message as they do among the others.
-/

namespace RtmpEndpoint.Chunk

/-! ## The chunks of a run -/

/-- The chunk stream that the basic header in front names. -/
def chunkStream (bytes : Bytes) : UInt32 :=
  match readBasicHeader? bytes with
  | some (_, csid, _) => csid
  | none => 0

/-- Cuts the input where a step ended a chunk; `begun` is what the chunk at hand has so far. -/
def cut : (steps : List (ReadStage × Progress)) → (begun input : Bytes) → List WireChunk
  | [], _, _ => []
  | (_, .needMoreData) :: steps, begun, input => cut steps begun input
  | (_, .advanced n next) :: steps, begun, input =>
    let bytes := begun ++ input.take n
    if next = .firstByteBasicHeader then
      ⟨chunkStream bytes, bytes, none⟩ :: cut steps [] (input.drop n)
    else cut steps bytes (input.drop n)
  | (_, .completed n payload) :: steps, begun, input =>
    let bytes := begun ++ input.take n
    ⟨chunkStream bytes, bytes, some payload⟩ :: cut steps [] (input.drop n)

namespace Assembler

/-- The whole chunks that a run over `input` took, from basic header to body. -/
def Run.chunks (run : Run) (input : Bytes) : List WireChunk := cut run.steps [] input

/-- The input is taken as these chunks, the first of which has `begun` already: the assembler, its
stage, what has begun, the input, the chunks and the assembler after them. -/
inductive Cuts :
    Assembler → ReadStage → (begun input : Bytes) → List WireChunk → Assembler → Prop where
  | done (a : Assembler) : Cuts a .firstByteBasicHeader [] [] [] a
  /-- A part of a chunk, not the last one. -/
  | inside {a b c : Assembler} {stage next : ReadStage} {begun taken rest : Bytes}
      {chunks : List WireChunk} (takes : a.Takes stage taken next none b)
      (inside : next ≠ .firstByteBasicHeader) (more : Cuts b next (begun ++ taken) rest chunks c) :
      Cuts a stage begun (taken ++ rest) chunks c
  /-- The last part of a chunk. -/
  | ended {a b c : Assembler} {stage : ReadStage} {begun taken rest : Bytes} {format : Format}
      {n : Nat} {completes : Option Payload} {chunks : List WireChunk}
      (takes : a.Takes stage taken .firstByteBasicHeader completes b)
      (named : readBasicHeader? (begun ++ taken) = some (format, a.current.csid, n))
      (more : Cuts b .firstByteBasicHeader [] rest chunks c) :
      Cuts a stage begun (taken ++ rest) (⟨a.current.csid, begun ++ taken, completes⟩ :: chunks) c

variable {a a' b c : Assembler} {stage stage' next : ReadStage} {begun begun' taken input : Bytes}
  {completes : Option Payload} {chunks : List WireChunk} {csid : UInt32}

/-- No byte is lost. -/
theorem Cuts.bytes (h : Cuts a stage begun input chunks c) :
    chunks.flatMap (·.bytes) = begun ++ input := by
  induction h with
  | done a => rfl
  | inside takes inside more ih => rw [ih, List.append_assoc]
  | ended takes named more ih => rw [List.flatMap_cons, ih, List.append_assoc, List.nil_append]

/-- Every chunk is on the chunk stream that its basic header names. -/
theorem Cuts.named (h : Cuts a stage begun input chunks c) :
    ∀ chunk ∈ chunks, ∃ format n, readBasicHeader? chunk.bytes = some (format, chunk.csid, n) := by
  induction h with
  | done a => simp
  | inside takes inside more ih => exact ih
  | ended takes named more ih => exact List.forall_mem_cons.mpr ⟨⟨_, _, named⟩, ih⟩

/-- A reader takes all of the input and completes what its chunks complete. -/
theorem Cuts.follow (h : Cuts a stage begun input chunks c) :
    a.follow .none stage input
      = ⟨chunks.filterMap (·.completes), .firstByteBasicHeader, [], none, c⟩ := by
  induction h with
  | done a => exact follow_nil .none a
  | inside takes inside more ih =>
    rw [follow_advanced .none (takes.step_eq _), List.drop_left, ih]
  | @ended a b c stage begun taken rest format n completes chunks takes named more ih =>
    have hstep := takes.step_eq rest
    cases completes with
    | none =>
      rw [follow_advanced .none hstep, List.drop_left, ih]
      rfl
    | some payload =>
      rw [follow_completed .none hstep, List.drop_left, resume_none_some, ih]
      rfl

/-- What has begun of a chunk names its chunk stream, and nothing has begun between two chunks. -/
def Begun (a : Assembler) (stage : ReadStage) (begun : Bytes) : Prop :=
  if stage = .firstByteBasicHeader then begun = []
  else ∃ format n, ∀ rest, readBasicHeader? (begun ++ rest) = some (format, a.current.csid, n)

theorem begun_nil (a : Assembler) : a.Begun .firstByteBasicHeader [] := rfl

theorem Begun.takes (hb : a.Begun stage begun) (h : a.Takes stage taken next completes b)
    (hn : next ≠ .firstByteBasicHeader) : b.Begun next (begun ++ taken) := by
  rw [Begun, if_neg hn]
  by_cases hs : stage = .firstByteBasicHeader
  · subst hs
    obtain rfl : begun = [] := hb
    cases h with
    | basicHeader read known => exact ⟨_, _, read⟩
  · rw [Begun, if_neg hs] at hb
    obtain ⟨format, n, hread⟩ := hb
    rw [h.csid_eq hs]
    exact ⟨format, n, fun rest => by rw [List.append_assoc, hread]⟩

theorem Begun.ended (hb : a.Begun stage begun)
    (h : a.Takes stage taken .firstByteBasicHeader completes b) :
    ∃ format n, readBasicHeader? (begun ++ taken) = some (format, a.current.csid, n) := by
  obtain rfl := h.stage_of_ended
  obtain ⟨format, n, hread⟩ := hb
  exact ⟨format, n, hread taken⟩

/-- A run that ends between two chunks has taken its input as the chunks that it is cut into. -/
theorem cuts_of_runOnto (before : List (ReadStage × Progress)) (a : Assembler) (stage : ReadStage)
    (input : Bytes) (hfailure : (a.runOnto before stage input).failure = none)
    (hrest : (a.runOnto before stage input).rest = [])
    (hstage : (a.runOnto before stage input).stage = .firstByteBasicHeader) :
    ∃ steps, (a.runOnto before stage input).steps = before.reverse ++ steps ∧
      ∀ begun, a.Begun stage begun →
        Cuts a stage begun input (cut steps begun input)
          (a.runOnto before stage input).assembler := by
  -- Along the loop, with what has begun of the chunk at hand left open for the induction.
  fun_induction runOnto before a stage input with
  | case1 before a stage input error b h => cases hfailure
  | case2 before a stage input b h =>
    obtain rfl : input = [] := hrest
    obtain rfl : stage = .firstByteBasicHeader := hstage
    cases h
    refine ⟨[], (List.append_nil _).symm, ?_⟩
    intro begun hbegun
    obtain rfl : begun = [] := hbegun
    exact .done a
  | case3 before a stage input consumed next b h ih =>
    obtain ⟨steps, hsteps, hcuts⟩ := ih hfailure hrest hstage
    obtain ⟨taken, rest, rfl, rfl, htakes⟩ := takes_of_advanced h
    refine ⟨(stage, .advanced taken.length next) :: steps, ?_, ?_⟩
    · rw [hsteps, List.reverse_cons, List.append_assoc]
      rfl
    · intro begun hbegun
      rw [List.drop_left] at hcuts
      simp only [cut, List.take_left, List.drop_left]
      by_cases hn : next = .firstByteBasicHeader
      · subst hn
        obtain ⟨format, n, hnamed⟩ := hbegun.ended htakes
        rw [if_pos rfl, chunkStream, hnamed]
        exact .ended htakes hnamed (hcuts [] b.begun_nil)
      · rw [if_neg hn]
        exact .inside htakes hn (hcuts _ (hbegun.takes htakes hn))
  | case4 before a stage input consumed payload b h ih =>
    obtain ⟨steps, hsteps, hcuts⟩ := ih hfailure hrest hstage
    obtain ⟨taken, rest, rfl, rfl, htakes⟩ := takes_of_completed h
    refine ⟨(stage, .completed taken.length payload) :: steps, ?_, ?_⟩
    · rw [hsteps, List.reverse_cons, List.append_assoc]
      rfl
    · intro begun hbegun
      rw [List.drop_left] at hcuts
      obtain ⟨format, n, hnamed⟩ := hbegun.ended htakes
      simp only [cut, List.take_left, List.drop_left, chunkStream, hnamed]
      exact .ended htakes hnamed (hcuts [] b.begun_nil)

theorem cuts_of_run (hfailure : (a.run .firstByteBasicHeader input).failure = none)
    (hrest : (a.run .firstByteBasicHeader input).rest = [])
    (hstage : (a.run .firstByteBasicHeader input).stage = .firstByteBasicHeader) :
    Cuts a .firstByteBasicHeader [] input ((a.run .firstByteBasicHeader input).chunks input)
      (a.run .firstByteBasicHeader input).assembler := by
  obtain ⟨steps, hsteps, hcuts⟩ := cuts_of_runOnto [] a _ input hfailure hrest hstage
  rw [Run.chunks, run, hsteps]
  exact hcuts [] a.begun_nil

/-! ## Two runs side by side -/

/-- The same limits, and the same knowledge of one chunk stream. -/
structure AgreesOn (csid : UInt32) (a a' : Assembler) : Prop where
  maxSize : a'.maxSize = a.maxSize
  headers : a'.headers.get? csid = a.headers.get? csid
  pending : a'.pending csid = a.pending csid

theorem AgreesOn.refl (csid : UInt32) (a : Assembler) : AgreesOn csid a a := ⟨rfl, rfl, rfl⟩

theorem AgreesOn.symm (h : AgreesOn csid a b) : AgreesOn csid b a :=
  ⟨h.maxSize.symm, h.headers.symm, h.pending.symm⟩

theorem AgreesOn.trans (h : AgreesOn csid a b) (h' : AgreesOn csid b c) : AgreesOn csid a c :=
  ⟨h'.maxSize.trans h.maxSize, h'.headers.trans h.headers, h'.pending.trans h.pending⟩

/-- A step in a chunk of another chunk stream. -/
theorem Takes.agreesOn (h : a.Takes stage taken next completes b) (hne : b.current.csid ≠ csid) :
    AgreesOn csid a b := by
  cases h with
  | basicHeader read known =>
    refine ⟨opened_maxSize a, congrArg (·.get? csid) (opened_headers a), ?_⟩
    exact (pending_opened_eq ..).trans (if_neg fun h => hne h.2)
  | fields | extension => exact ⟨rfl, rfl, rfl⟩
  | part =>
    have hleaves := a.leaves_keep taken
    exact ⟨hleaves.maxSize, hleaves.headers csid hne, hleaves.pending csid hne⟩
  | last =>
    have hleaves := a.leaves_finish
    exact ⟨hleaves.maxSize, hleaves.headers csid hne, hleaves.pending csid hne⟩

theorem AgreesOn.received (agrees : AgreesOn csid a a') (hcurrent : a'.current = a.current)
    (hcsid : a.current.csid = csid) : a'.received.bytes = a.received.bytes := by
  rw [bytes_received, bytes_received, hcurrent, hcsid, agrees.pending]

theorem AgreesOn.size (agrees : AgreesOn csid a a') (hcurrent : a'.current = a.current)
    (hcsid : a.current.csid = csid) : a'.received.size = a.received.size := by
  rw [← Buffer.length_bytes, ← Buffer.length_bytes, agrees.received hcurrent hcsid]

theorem AgreesOn.bodySize (agrees : AgreesOn csid a a') (hcurrent : a'.current = a.current)
    (hcsid : a.current.csid = csid) : a'.bodySize = a.bodySize := by
  rw [Assembler.bodySize, Assembler.bodySize, agrees.size hcurrent hcsid, hcurrent,
    agrees.maxSize]

/-- A step in a chunk of this chunk stream is taken by both alike. -/
theorem Takes.alongside (h : a.Takes stage taken next completes b) (agrees : AgreesOn csid a a')
    (hown : b.current.csid = csid)
    (hcurrent : stage ≠ .firstByteBasicHeader → a'.current = a.current) :
    ∃ b' : Assembler, a'.Takes stage taken next completes b' ∧ AgreesOn csid b b' ∧
      b'.current = b.current := by
  cases h with
  | @basicHeader _ format own header read known =>
    obtain rfl : own = csid := hown
    have hknown : a'.start? format own = some header := by
      rw [start?, agrees.headers]
      exact known
    refine ⟨_, .basicHeader read hknown, ⟨?_, ?_, ?_⟩, rfl⟩
    · exact (opened_maxSize a').trans (agrees.maxSize.trans (opened_maxSize a).symm)
    · change (a'.opened format own).headers.get? own = (a.opened format own).headers.get? own
      rw [opened_headers, opened_headers, agrees.headers]
    · change (a'.opened format own).pending own = (a.opened format own).pending own
      rw [pending_opened_eq, pending_opened_eq, agrees.pending]
  | fields whole =>
    have hc := hcurrent (by simp)
    refine ⟨_, .fields (by rw [hc, whole]), ⟨agrees.maxSize, agrees.headers, agrees.pending⟩, ?_⟩
    rw [hc]
  | extension whole =>
    have hc := hcurrent (by simp)
    refine ⟨_, .extension whole, ⟨agrees.maxSize, agrees.headers, agrees.pending⟩, ?_⟩
    rw [hc]
  | part whole short =>
    have hc := hcurrent (by simp)
    have hwhole : taken.length = a'.bodySize := by rw [agrees.bodySize hc hown, whole]
    have hshort : a'.received.size + taken.length ≠ a'.current.header.length := by
      rwa [agrees.size hc hown, hc]
    refine ⟨a'.keep taken, .part hwhole hshort, ⟨agrees.maxSize, ?_, ?_⟩, hc⟩
    · rw [get?_headers_keep, get?_headers_keep, hc, agrees.headers]
    · rw [pending_keep, pending_keep, hc, agrees.received hc hown, agrees.pending]
  | last whole full =>
    have hc := hcurrent (by simp)
    have hwhole : taken.length = a'.bodySize := by rw [agrees.bodySize hc hown, whole]
    have hfull : a'.received.size + taken.length = a'.current.header.length := by
      rwa [agrees.size hc hown, hc]
    refine ⟨a'.finish, ?_, ⟨agrees.maxSize, ?_, ?_⟩, hc⟩
    · rw [← agrees.received hc hown, ← hc]
      exact .last hwhole hfull
    · rw [get?_headers_finish, get?_headers_finish, hc, agrees.headers]
    · rw [pending_finish, pending_finish, hc, agrees.pending]

/-- The run on one chunk stream, beside the run on all of them. -/
inductive Beside (csid : UInt32) (a a' : Assembler) :
    (stage : ReadStage) → (begun : Bytes) → (stage' : ReadStage) → (begun' : Bytes) → Prop where
  | between : Beside csid a a' .firstByteBasicHeader [] .firstByteBasicHeader []
  /-- Inside a chunk that both read. -/
  | own {stage : ReadStage} {begun : Bytes} (inside : stage ≠ .firstByteBasicHeader)
      (csid_eq : a.current.csid = csid) (current : a'.current = a.current) :
      Beside csid a a' stage begun stage begun
  /-- Inside a chunk that only the run on all of them reads. -/
  | other {stage : ReadStage} {begun : Bytes} (inside : stage ≠ .firstByteBasicHeader)
      (csid_ne : a.current.csid ≠ csid) : Beside csid a a' stage begun .firstByteBasicHeader []

/-- The chunks of one chunk stream are whole chunks of a run without the others. -/
theorem Cuts.alone (h : Cuts a stage begun input chunks c) (agrees : AgreesOn csid a a')
    (beside : Beside csid a a' stage begun stage' begun') :
    ∃ input' c', Cuts a' stage' begun' input' (chunks.filter (·.csid = csid)) c' := by
  -- The second run stands still while the first one is in a chunk of another chunk stream.
  induction h generalizing a' stage' begun' with
  | done a =>
    cases beside with
    | between => exact ⟨[], a', .done a'⟩
    | own inside => exact absurd rfl inside
    | other inside => exact absurd rfl inside
  | @inside a b c stage next begun taken rest chunks takes inside more ih =>
    cases beside with
    | between =>
      by_cases hc : b.current.csid = csid
      · obtain ⟨b', htakes, hagrees, hcurrent⟩ := takes.alongside agrees hc (by simp)
        obtain ⟨input', c', hcuts⟩ := ih hagrees (.own inside hc hcurrent)
        exact ⟨_, c', .inside htakes inside hcuts⟩
      · exact ih ((takes.agreesOn hc).symm.trans agrees) (.other inside hc)
    | own hs hc hcurrent =>
      have hc' := (takes.csid_eq hs).trans hc
      obtain ⟨b', htakes, hagrees, hcurrent'⟩ := takes.alongside agrees hc' fun _ => hcurrent
      obtain ⟨input', c', hcuts⟩ := ih hagrees (.own inside hc' hcurrent')
      exact ⟨_, c', .inside htakes inside hcuts⟩
    | other hs hc =>
      have hc' : b.current.csid ≠ csid := by rwa [takes.csid_eq hs]
      exact ih ((takes.agreesOn hc').symm.trans agrees) (.other inside hc')
  | @ended a b c stage begun taken rest format n completes chunks takes named more ih =>
    cases beside with
    | between => exact absurd rfl takes.next_ne
    | own hs hc hcurrent =>
      have hc' := (takes.csid_eq hs).trans hc
      obtain ⟨b', htakes, hagrees, -⟩ := takes.alongside agrees hc' fun _ => hcurrent
      obtain ⟨input', c', hcuts⟩ := ih hagrees .between
      rw [List.filter_cons_of_pos (by simpa using hc), ← hcurrent]
      exact ⟨_, c', .ended htakes (by rw [hcurrent]; exact named) hcuts⟩
    | other hs hc =>
      have hc' : b.current.csid ≠ csid := by rwa [takes.csid_eq hs]
      rw [List.filter_cons_of_neg (by simpa using hc)]
      exact ih ((takes.agreesOn hc').symm.trans agrees) .between

/-- When a fresh reader takes its input as whole chunks, those of one chunk stream complete the same
messages for a fresh reader that never sees the others. -/
theorem payloads_alone (size : Size) (input : Bytes) (csid : UInt32)
    (hfailure : ((fresh size).run .firstByteBasicHeader input).failure = none)
    (hrest : ((fresh size).run .firstByteBasicHeader input).rest = [])
    (hstage : ((fresh size).run .firstByteBasicHeader input).stage = .firstByteBasicHeader) :
    let run := (fresh size).run .firstByteBasicHeader input
    let chunks := run.chunks input
    let own := chunks.filter (·.csid = csid)
    let alone := (fresh size).run .firstByteBasicHeader (own.flatMap (·.bytes))
    chunks.flatMap (·.bytes) = input ∧
      (∀ chunk ∈ chunks, ∃ format n,
        readBasicHeader? chunk.bytes = some (format, chunk.csid, n)) ∧
      run.payloads = chunks.filterMap (·.completes) ∧
      alone.failure = none ∧ alone.rest = [] ∧ alone.stage = .firstByteBasicHeader ∧
      alone.payloads = own.filterMap (·.completes) := by
  have hcuts := cuts_of_run hfailure hrest hstage
  obtain ⟨input', c', hown⟩ := hcuts.alone (AgreesOn.refl csid _) .between
  have hinput : _ = input' := hown.bytes
  have hrun := hcuts.follow
  have halone := hown.follow
  rw [← reception_run] at hrun halone
  rw [← hinput] at halone
  exact ⟨hcuts.bytes, hcuts.named, congrArg Reception.payloads hrun,
    congrArg Reception.failure halone, congrArg Reception.rest halone,
    congrArg Reception.stage halone, congrArg Reception.payloads halone⟩

/-- A message in two chunks, and between them one on chunk stream 66, whose basic header is longer
than it need be and whose timestamp needs an extension. -/
def audioAroundVideo : Bytes :=
  [0x03, 0, 0, 5, 0, 0, 3, 8, 1, 0, 0, 0, 1, 2] ++
    [0x01, 2, 0, 0xff, 0xff, 0xff, 0, 0, 1, 9, 1, 0, 0, 0, 1, 0, 0, 0, 7] ++ [0xc3, 3]

theorem payloads_alone_audioAroundVideo :
    let run := (fresh ⟨2, by decide, by decide⟩).run .firstByteBasicHeader audioAroundVideo
    let own := (run.chunks audioAroundVideo).filter (·.csid = 3)
    let alone := (fresh ⟨2, by decide, by decide⟩).run .firstByteBasicHeader
      (own.flatMap (·.bytes))
    run.failure = none ∧ run.rest = [] ∧ run.stage = .firstByteBasicHeader ∧
      own.flatMap (·.bytes) = [0x03, 0, 0, 5, 0, 0, 3, 8, 1, 0, 0, 0, 1, 2, 0xc3, 3] ∧
      alone.payloads = [⟨⟨5⟩, .audio, 1, [1, 2, 3]⟩] := by
  have hfailure : ((fresh ⟨2, by decide, by decide⟩).run .firstByteBasicHeader
      audioAroundVideo).failure = none := by cbv
  have hrest : ((fresh ⟨2, by decide, by decide⟩).run .firstByteBasicHeader
      audioAroundVideo).rest = [] := by cbv
  have hstage : ((fresh ⟨2, by decide, by decide⟩).run .firstByteBasicHeader
      audioAroundVideo).stage = .firstByteBasicHeader := by cbv
  have hown : (((fresh ⟨2, by decide, by decide⟩).run .firstByteBasicHeader
        audioAroundVideo).chunks audioAroundVideo).filter (·.csid = 3)
      = [⟨3, [0x03, 0, 0, 5, 0, 0, 3, 8, 1, 0, 0, 0, 1, 2], none⟩,
        ⟨3, [0xc3, 3], some ⟨⟨5⟩, .audio, 1, [1, 2, 3]⟩⟩] := by cbv
  intro run own alone
  obtain ⟨-, -, -, -, -, -, hpayloads⟩ :=
    payloads_alone ⟨2, by decide, by decide⟩ audioAroundVideo 3 hfailure hrest hstage
  have hown : own = _ := hown
  have hpayloads : alone.payloads = own.filterMap (·.completes) := hpayloads
  rw [hpayloads, hown]
  exact ⟨hfailure, hrest, hstage, rfl, rfl⟩

end Assembler

end RtmpEndpoint.Chunk
