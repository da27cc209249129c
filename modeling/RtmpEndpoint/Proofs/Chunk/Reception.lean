import RtmpEndpoint.Chunk.Assembler

/-!
# Receptions

What a reader makes of a run of bytes, with a reaction to each message before the bytes after it are
looked at. The loop of the assembler is the case without a reaction.
-/

namespace RtmpEndpoint.Chunk

/-- What came of the bytes that were offered. -/
structure Reception where
  payloads : List Payload
  stage : ReadStage
  /-- What was not consumed. -/
  rest : Bytes
  failure : Option AssembleError
  assembler : Assembler

/-- A message that was completed before. -/
def Reception.after (payload : Payload) (r : Reception) : Reception :=
  { r with payloads := payload :: r.payloads }

def Assembler.Run.reception (run : Assembler.Run) : Reception :=
  ⟨run.payloads, run.stage, run.rest, run.failure, run.assembler⟩

/-- What a reader does to its assembler when a message is complete. -/
abbrev Reaction := Payload → Assembler → Except AssembleError Assembler

/-- A reader that only collects messages. -/
def Reaction.none : Reaction := fun _ a => .ok a

namespace Assembler

/-- Steps over the input until more data is needed or a step or a reaction fails. -/
def follow (react : Reaction) (a : Assembler) (stage : ReadStage) (input : Bytes) : Reception :=
  match _h : a.step stage input with
  | (.error error, b) => ⟨[], stage, input, some error, b⟩
  | (.ok .needMoreData, b) => ⟨[], stage, input, .none, b⟩
  | (.ok (.advanced consumed next), b) => b.follow react next (input.drop consumed)
  | (.ok (.completed consumed payload), b) =>
    match react payload b with
    | .error error =>
      ⟨[payload], .firstByteBasicHeader, input.drop consumed, some error, b⟩
    | .ok c => (c.follow react .firstByteBasicHeader (input.drop consumed)).after payload
termination_by (input.length, stage.rank)
decreasing_by
  · obtain ⟨hle, hlt⟩ := step_advanced _h
    rw [Prod.lex_def]
    simp only [List.length_drop]
    omega
  · obtain ⟨hle, rfl⟩ := step_completed _h
    rw [Prod.lex_def]
    simp only [List.length_drop, ReadStage.rank]
    omega

/-- What follows once a chunk has been read as a whole. -/
def resume (react : Reaction) (a : Assembler) (completed : Option Payload) (rest : Bytes) :
    Reception :=
  match completed with
  | none => a.follow react .firstByteBasicHeader rest
  | some payload =>
    match react payload a with
    | .error error => ⟨[payload], .firstByteBasicHeader, rest, some error, a⟩
    | .ok b => (b.follow react .firstByteBasicHeader rest).after payload

variable {a b : Assembler} {stage next : ReadStage} {input : Bytes} {n : Nat} {payload : Payload}

theorem follow_advanced (react : Reaction) (h : a.step stage input = (.ok (.advanced n next), b)) :
    a.follow react stage input = b.follow react next (input.drop n) := by
  rw [follow]
  split <;> simp_all

theorem follow_completed (react : Reaction) (h : a.step stage input = (.ok (.completed n payload), b)) :
    a.follow react stage input = b.resume react (some payload) (input.drop n) := by
  rw [follow]
  split <;> simp_all
  rfl

theorem follow_needMoreData (react : Reaction) (h : a.step stage input = (.ok .needMoreData, b)) :
    a.follow react stage input = ⟨[], stage, input, none, b⟩ := by
  rw [follow]
  split <;> simp_all

/-- At the end of the input a reader that is between two chunks rests. -/
@[simp] theorem follow_nil (react : Reaction) (a : Assembler) :
    a.follow react .firstByteBasicHeader [] = ⟨[], .firstByteBasicHeader, [], none, a⟩ :=
  follow_needMoreData react rfl

theorem resume_none_some (a : Assembler) (payload : Payload) (rest : Bytes) :
    a.resume .none (some payload) rest
      = (a.follow .none .firstByteBasicHeader rest).after payload := rfl

theorem reception_runOnto (taken : List (ReadStage × Progress)) (a : Assembler) (stage : ReadStage)
    (input : Bytes) :
    (a.runOnto taken stage input).reception =
      { a.follow .none stage input with
        payloads := (Run.payloads ⟨taken.reverse, stage, input, none, a⟩)
          ++ (a.follow .none stage input).payloads } := by
  fun_induction runOnto taken a stage input with
  | case1 taken a stage input error b h =>
    rw [follow]
    split <;> simp_all [Run.reception, Run.payloads]
  | case2 taken a stage input b h =>
    rw [follow_needMoreData .none h]
    simp [Run.reception, Run.payloads]
  | case3 taken a stage input consumed next b h ih =>
    rw [follow_advanced .none h, ih]
    simp [Run.payloads]
  | case4 taken a stage input consumed payload b h ih =>
    rw [follow_completed .none h, ih, resume_none_some]
    simp [Run.payloads, Reception.after]

/-- The loop of the assembler is a reception without a reaction. -/
theorem reception_run (a : Assembler) (stage : ReadStage) (input : Bytes) :
    (a.run stage input).reception = a.follow .none stage input := by
  rw [run, reception_runOnto]
  simp [Run.payloads]

end Assembler

end RtmpEndpoint.Chunk
