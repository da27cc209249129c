import RtmpEndpoint.Proofs.Connection.Opening

/-!
# The stages of a handshake

A handshake judges C0 and C1, and C2, by what is in them. Of its stages only the last one makes a
difference: until it is complete, a handshake answers each call as if no other call had come before.
So it is for the caller to keep the order of the exchange. Here it is said of all sequences of calls
what they are answered, and which of them go through the stages in order.
-/

namespace RtmpEndpoint.Handshake

/-- What a handshake is given to judge. -/
inductive Call where
  /-- C0 and C1. -/
  | opening (input : Bytes)
  /-- C2. -/
  | closing (input : Bytes)

inductive Answer where
  | waits
  | fails (error : Error)
  /-- To C0 and C1. -/
  | replied (reply : Reply)
  /-- To C2. -/
  | completed
  deriving DecidableEq

def Answer.isReply : Answer → Bool
  | replied _ => true
  | waits | fails _ | completed => false

def call (h : Handshake) : Call → Answer × Handshake
  | .opening input =>
    match h.receiveC0C1 input with
    | .error error => (.fails error, h)
    | .ok none => (.waits, h)
    | .ok (some (reply, next)) => (.replied reply, next)
  | .closing input =>
    match h.receiveC2 input with
    | .error error => (.fails error, h)
    | .ok none => (.waits, h)
    | .ok (some next) => (.completed, next)

/-- The handshake after all of the calls. -/
def run (calls : List Call) (h : Handshake) : Handshake :=
  calls.foldl (fun h call => (h.call call).2) h

/-- The answers to the calls, one after the other. -/
def responses : List Call → Handshake → List Answer
  | [], _ => []
  | call :: calls, h => (h.call call).1 :: responses calls (h.call call).2

/-- The exchange went through its stages in order: C0 and C1 were answered no more than once, and
before C2 was taken. -/
structure InOrder (answers : List Answer) : Prop where
  once : answers.countP Answer.isReply ≤ 1
  repliedFirst : ∀ before after, answers = before ++ .completed :: after →
    before.any Answer.isReply = true

variable {h : Handshake} {nonce : Nonce} {heard answers later : List Answer}

/-! ## One call -/

/-- The answer to a call that is the only one. -/
def judge (nonce : Nonce) : Call → Answer
  | .opening input =>
    if input.length < 1537 then .waits
    else if Opens input then .replied (reply nonce (input.extract 1 5) (input.extract 9 1537))
    else .fails (openingError input)
  | .closing input =>
    if input.length < 1536 then .waits
    else if IsEcho nonce input then .completed
    else .fails (packetError input)

/-- The handshake after an answer. -/
def answered (h : Handshake) : Answer → Handshake
  | .waits | .fails _ => h
  | .replied _ => { h with stage := .waitingForC2 }
  | .completed => { h with stage := .complete }

/-- Before the last stage it does not matter which stage it is. -/
theorem call_eq (hstage : h.stage ≠ .complete) (call : Call) :
    h.call call = (judge h.nonce call, h.answered (judge h.nonce call)) := by
  cases call with
  | opening input =>
    rw [Handshake.call, receiveC0C1_eq hstage, judge]
    by_cases hlen : input.length < 1537
    · simp only [hlen, if_true, answered]
    · by_cases hopens : Opens input
      · simp only [hlen, hopens, if_true, if_false, answered]
      · simp only [hlen, hopens, if_false, answered]
  | closing input =>
    rw [Handshake.call, receiveC2_packet hstage, judge]
    by_cases hlen : input.length < 1536
    · simp only [hlen, if_true, answered]
    · by_cases hecho : IsEcho h.nonce input
      · simp only [hlen, hecho, if_true, if_false, answered]
      · simp only [hlen, hecho, if_false, answered]

theorem call_of_complete (hstage : h.stage = .complete) (call : Call) :
    h.call call = (.fails .alreadyCompleted, h) := by
  have hcomplete : h.isComplete = true := by simp [isComplete, hstage]
  cases call with
  | opening input => simp only [Handshake.call, receiveC0C1, hcomplete, if_true]
  | closing input => simp only [Handshake.call, receiveC2, hcomplete, if_true]

/-- A call that is not taken leaves the handshake alone. -/
theorem call_untaken (call : Call)
    (huntaken : (h.call call).1 = .waits ∨ ∃ error, (h.call call).1 = .fails error) :
    (h.call call).2 = h := by
  by_cases hstage : h.stage = .complete
  · rw [call_of_complete hstage]
  · rw [call_eq hstage] at huntaken ⊢
    rcases huntaken with hwaits | ⟨error, hfails⟩
    · dsimp only at hwaits ⊢
      rw [hwaits, answered]
    · dsimp only at hfails ⊢
      rw [hfails, answered]

/-! ## All calls -/

/-- The stage that the answers lead to. -/
def stageAfter (stage : Stage) (answers : List Answer) : Stage :=
  if .completed ∈ answers then .complete
  else if answers.any Answer.isReply then .waitingForC2
  else stage

/-- The answers up to the one that completes the handshake. All that come later are refusals. -/
def untilComplete : List Answer → List Answer
  | [] => []
  | answer :: later =>
    answer :: if answer = .completed then later.map fun _ => .fails .alreadyCompleted
      else untilComplete later

theorem run_of_complete (hstage : h.stage = .complete) (calls : List Call) :
    run calls h = h ∧ responses calls h = calls.map fun _ => .fails .alreadyCompleted := by
  induction calls with
  | nil => exact ⟨rfl, rfl⟩
  | cons call calls ih =>
    rw [run, List.foldl_cons, responses, call_of_complete hstage, List.map_cons]
    exact ⟨ih.1, congrArg _ ih.2⟩

theorem stage_answered (hstage : h.stage ≠ .complete) (answer : Answer)
    (later : List Answer) (hanswer : answer ≠ .completed) :
    (h.answered answer).stage ≠ .complete ∧ (h.answered answer).nonce = h.nonce ∧
      stageAfter (h.answered answer).stage later = stageAfter h.stage (answer :: later) := by
  cases answer with
  | waits => exact ⟨hstage, rfl, by simp [stageAfter, answered, Answer.isReply]⟩
  | fails error => exact ⟨hstage, rfl, by simp [stageAfter, answered, Answer.isReply]⟩
  | replied reply => exact ⟨by simp [answered], rfl, by simp [stageAfter, answered, Answer.isReply]⟩
  | completed => exact absurd rfl hanswer

/-- Each call is answered as if it were the only one, until the handshake is complete. -/
theorem run_eq (hstage : h.stage ≠ .complete) (calls : List Call) :
    (run calls h).stage = stageAfter h.stage (calls.map (judge h.nonce)) ∧
      ((run calls h).stage ≠ .complete → (run calls h).nonce = h.nonce) ∧
      responses calls h = untilComplete (calls.map (judge h.nonce)) := by
  induction calls generalizing h with
  | nil => exact ⟨by simp [run, stageAfter], fun _ => rfl, rfl⟩
  | cons call calls ih =>
    rw [run, List.foldl_cons, ← run, responses, call_eq hstage, List.map_cons, untilComplete]
    by_cases hanswer : judge h.nonce call = .completed
    · obtain ⟨hrun, hresponses⟩ := run_of_complete (h := h.answered .completed) rfl calls
      simp only [hanswer, hrun, hresponses, if_true, List.map_map]
      exact ⟨by simp [stageAfter, answered], fun hne => absurd rfl hne, rfl⟩
    · obtain ⟨hnext, hnonce, hafter⟩ :=
        stage_answered hstage (judge h.nonce call) (calls.map (judge h.nonce)) hanswer
      obtain ⟨hrun, hstill, hresponses⟩ := ih hnext
      rw [hnonce] at hrun hstill hresponses
      rw [if_neg hanswer]
      exact ⟨hrun.trans hafter, hstill, congrArg _ hresponses⟩

/-! ## The order of the answers -/

theorem untilComplete_of_not_mem (hnone : .completed ∉ answers) :
    untilComplete answers = answers := by
  induction answers with
  | nil => rfl
  | cons answer answers ih =>
    rw [List.mem_cons, not_or] at hnone
    rw [untilComplete, if_neg (Ne.symm hnone.1), ih hnone.2]

theorem untilComplete_append (hnone : .completed ∉ heard) :
    untilComplete (heard ++ .completed :: later)
      = heard ++ .completed :: later.map fun _ => .fails .alreadyCompleted := by
  induction heard with
  | nil => rw [List.nil_append, untilComplete, if_pos rfl, List.nil_append]
  | cons answer heard ih =>
    rw [List.mem_cons, not_or] at hnone
    rw [List.cons_append, untilComplete, if_neg (Ne.symm hnone.1), ih hnone.2, List.cons_append]

/-- What comes before the answer that completes the handshake. -/
def beforeComplete (answers : List Answer) : List Answer := answers.takeWhile (· ≠ .completed)

theorem beforeComplete_of_not_mem (hnone : .completed ∉ answers) :
    beforeComplete answers = answers := by
  induction answers with
  | nil => rfl
  | cons answer answers ih =>
    rw [List.mem_cons, not_or] at hnone
    rw [beforeComplete, List.takeWhile_cons_of_pos (by simpa using Ne.symm hnone.1)]
    exact congrArg _ (ih hnone.2)

theorem beforeComplete_append (hnone : .completed ∉ heard) :
    beforeComplete (heard ++ .completed :: later) = heard := by
  induction heard with
  | nil => exact List.takeWhile_cons_of_neg (by simp)
  | cons answer heard ih =>
    rw [List.mem_cons, not_or] at hnone
    rw [beforeComplete, List.cons_append,
      List.takeWhile_cons_of_pos (by simpa using Ne.symm hnone.1)]
    exact congrArg _ (ih hnone.2)

/-- The first answer that completes the handshake splits the others. -/
theorem before_of_append_eq {before after : List Answer} (hnone : .completed ∉ heard)
    (heq : heard ++ .completed :: later = before ++ .completed :: after) :
    ∃ more, before = heard ++ more := by
  rcases List.append_eq_append_iff.mp heq with ⟨more, hbefore, -⟩ | ⟨more, hheard, hmore⟩
  · exact ⟨more, hbefore⟩
  · cases more with
    | nil => exact ⟨[], by simpa using hheard.symm⟩
    | cons answer more =>
      obtain rfl : .completed = answer := (List.cons.inj hmore).1
      rw [hheard] at hnone
      simp at hnone

/-- The order is kept if no more than one reply comes before the end, and one does. -/
theorem inOrder_untilComplete_iff (answers : List Answer) :
    InOrder (untilComplete answers) ↔
      (beforeComplete answers).countP Answer.isReply ≤ 1 ∧
        (.completed ∈ answers → (beforeComplete answers).any Answer.isReply = true) := by
  by_cases hmem : .completed ∈ answers
  · obtain ⟨heard, later, rfl, hnone⟩ := List.eq_append_cons_of_mem hmem
    have hcount : (heard ++ Answer.completed :: later.map fun _ =>
        Answer.fails .alreadyCompleted).countP Answer.isReply = heard.countP Answer.isReply := by
      simp [Answer.isReply]
    rw [untilComplete_append hnone, beforeComplete_append hnone]
    constructor
    · rintro ⟨honce, hfirst⟩
      exact ⟨hcount ▸ honce, fun _ => hfirst heard _ rfl⟩
    · rintro ⟨honce, hfirst⟩
      refine ⟨hcount ▸ honce, fun before after heq => ?_⟩
      obtain ⟨more, rfl⟩ := before_of_append_eq hnone heq
      rw [List.any_append, hfirst hmem, Bool.true_or]
  · rw [untilComplete_of_not_mem hmem, beforeComplete_of_not_mem hmem]
    constructor
    · rintro ⟨honce, -⟩
      exact ⟨honce, fun h => absurd h hmem⟩
    · rintro ⟨honce, -⟩
      exact ⟨honce, fun before after heq => absurd (heq ▸ by simp) hmem⟩

/-- Until a handshake is complete, each call is answered as if it were the only one, whatever came
before, and the stage says which answers there have been; afterwards every call is refused. A call
that is not taken changes nothing. So the stages are gone through in order exactly by those calls of
which, up to the C2 that completes the handshake, no more than one C0 and C1 is good, and one is. -/
theorem answered_until_complete (nonce : Nonce) (calls : List Call) :
    let h := run calls { nonce }
    let alone := calls.map (judge nonce)
    h.stage = stageAfter .waitingForC0C1 alone ∧
    responses calls { nonce } = untilComplete alone ∧
    (∀ call, (h.call call).1
      = if h.stage = .complete then .fails .alreadyCompleted else judge nonce call) ∧
    (∀ call, ((h.call call).1 = .waits ∨ ∃ error, (h.call call).1 = .fails error) →
      (h.call call).2 = h) ∧
    (InOrder (responses calls { nonce }) ↔
      (beforeComplete alone).countP Answer.isReply ≤ 1 ∧
        (.completed ∈ alone → (beforeComplete alone).any Answer.isReply = true)) := by
  intro h alone
  obtain ⟨hstage, hnonce, hresponses⟩ := run_eq (h := { nonce }) (by simp) calls
  refine ⟨hstage, hresponses, fun call => ?_, call_untaken, ?_⟩
  · by_cases hcomplete : h.stage = .complete
    · rw [if_pos hcomplete, call_of_complete hcomplete]
    · rw [if_neg hcomplete, call_eq hcomplete, hnonce hcomplete]
  · rw [hresponses]
    exact inOrder_untilComplete_iff alone

/-- A nonce that is all zeros. -/
def zeros : Nonce := ⟨List.replicate 1528 0, List.length_replicate⟩

/-- C0 and C1 with an epoch and a nonce of zeros. -/
def hello : Bytes := 3 :: List.replicate 1536 0

/-- C0 and C1 are answered again while C2 is waited for, and C2 completes a handshake in which
nothing was answered. -/
theorem stages_not_in_order :
    ¬ InOrder (responses [.opening hello, .opening hello] { nonce := zeros }) ∧
      ¬ InOrder (responses [.closing (List.replicate 1536 0)] { nonce := zeros }) := by
  have hresponses (calls : List Call) :=
    (run_eq (h := { nonce := zeros }) (by simp) calls).2.2
  rw [hresponses, hresponses, inOrder_untilComplete_iff, inOrder_untilComplete_iff]
  decide +kernel

end RtmpEndpoint.Handshake
