import MultiAgentTrading.Trading.System
import MultiAgentTrading.Mt5.Bridge

/-!
# The run loop of the execution agent

The loop over any broker: what `place_order` brings is any fill for the assessment or an exception, assessments are any
stream, and a halt or a stop can come at every await.  `log` has the finished iterations, each with what was published
in it.  `approval_answered` says which approved assessments are answered: an iteration publishes exactly one result,
unless it found a halt, in which case the loop skips the assessment without a result.
-/

namespace MultiAgentTrading

open Runs PaperBroker

/-- A filled or a rejected result for an assessment. -/
def Answers (a : RiskAssessment ℚ) (result : ExecutionResult) : Prop :=
  result.proposalId = a.proposalId ∧
    (result.status = .filled ∨ result.status = .partiallyFilled ∨ result.status = .rejected)

/-- What `place_order` returns: a result with the proposal's id and a filled status. -/
def Fills (a : RiskAssessment ℚ) (result : ExecutionResult) : Prop :=
  result.proposalId = a.proposalId ∧ (result.status = .filled ∨ result.status = .partiallyFilled)

instance (a : RiskAssessment ℚ) (result : ExecutionResult) : Decidable (Fills a result) :=
  inferInstanceAs (Decidable (_ ∧ _))

theorem Fills.answers {a : RiskAssessment ℚ} {result : ExecutionResult} (h : Fills a result) : Answers a result :=
  ⟨h.1, h.2.imp_right .inl⟩

/-- The paper broker returns fills for the assessment. -/
theorem fills_of_fillOrder {b : PaperBroker} {a : RiskAssessment ℚ} {refPrice : RefPrice} {choice : FillChoice}
    {resultId : ℕ} {filled : Filled} (h : b.fillOrder a refPrice choice resultId = .ok filled) :
    match filled with
    | .opened _ _ result => Fills a result
    | .closed c => Fills a c.result := by
  rcases fillOrder_cases h with ⟨c, rfl, -, hclose⟩ | ⟨fill, -, hfill, -, rfl⟩
  · obtain ⟨-, -, -, -, hid, -, -, hstatus, -, -⟩ := closeAt_spec hclose
    exact ⟨hid, .inl hstatus⟩
  · exact ⟨rfl, (openingFill_spec refPrice.2 hfill).status⟩

/-- So does the bridge. -/
theorem fills_of_placeOrderResult {a : RiskAssessment ℚ} {volume : ℚ} {resultId : ℕ} {reply : Mt5.EaReply}
    {result : ExecutionResult} (h : Mt5.placeOrderResult a volume resultId reply = .ok result) : Fills a result := by
  unfold Mt5.placeOrderResult at h
  split at h
  case isTrue => cases h
  case isFalse =>
    cases h
    refine ⟨rfl, ?_⟩
    dsimp only
    split
    · exact .inl rfl
    · exact .inr rfl

/-- Where the loop is: waiting for an assessment, in `place_order`, about to publish a fill or a failure, past the
publishing, or ended. -/
inductive LoopStage
  | idle
  | placing (assessment : RiskAssessment ℚ)
  | publishing (assessment : RiskAssessment ℚ) (result : ExecutionResult) (fill : Bool)
  | published (assessment : RiskAssessment ℚ) (fill : Bool)
  | exited

/-- A finished iteration: the assessment, whether a halt was found, and what was published. -/
structure Iteration where
  assessment : RiskAssessment ℚ
  halted : Bool
  results : List ExecutionResult

/-- The agent's loop.  `mark` is the number of results published before the iteration under way. -/
structure RunLoop where
  isPaper : Bool
  stage : LoopStage := .idle
  halted : Bool := false
  stopped : Bool := false
  consecutiveErrors : ℕ := 0
  published : List ExecutionResult := []
  mark : ℕ := 0
  log : List Iteration := []
  nextId : ℕ := 0

/-- The events: the subscription delivers an assessment; the broker returns a fill or raises; the result is published;
the rest of the iteration ends or raises; a halt arrives, which may stop the agent; the agent is stopped. -/
inductive LoopEvent
  | take (assessment : RiskAssessment ℚ)
  | filled (result : ExecutionResult)
  | raised
  | publish
  | settle (ok : Bool)
  | halt (stop : Bool)
  | stop

/-- Whether an event is the answer of the broker. -/
def LoopEvent.isBroker : LoopEvent → Bool
  | .filled _ => true
  | .raised => true
  | _ => false

namespace RunLoop

/-- `_handle_error`. -/
def handleError (settings : Settings) (s : RunLoop) : RunLoop :=
  { s with
    consecutiveErrors := s.consecutiveErrors + 1
    stopped := s.stopped || settings.risk.maxAgentCrashes ≤ (s.consecutiveErrors + 1 : ℕ) }

/-- The iteration for `a` ends. -/
def finish (s : RunLoop) (a : RiskAssessment ℚ) (halted : Bool) : RunLoop :=
  { s with stage := .idle, log := s.log ++ [⟨a, halted, s.published.drop s.mark⟩] }

/-- An assessment comes in: the loop ends when stopping, and skips when halted or not approved. -/
def takeAssessment (s : RunLoop) (a : RiskAssessment ℚ) : RunLoop :=
  let s' := { s with mark := s.published.length }
  if s.stopped then { s with stage := .exited }
  else if s.halted then s'.finish a true
  else if a.isApproved = false then { s' with consecutiveErrors := 0 }.finish a false
  else { s' with stage := .placing a }

def step (settings : Settings) (s : RunLoop) : LoopEvent → Option RunLoop
  | .take a =>
    match s.stage with
    | .idle => some (s.takeAssessment a)
    | _ => none
  | .filled result =>
    match s.stage with
    | .placing a => if Fills a result then some { s with stage := .publishing a result true } else none
    | _ => none
  | .raised =>
    match s.stage with
    | .placing a =>
      let result := { failureResult a s.nextId with isPaper := s.isPaper }
      some { s.handleError settings with stage := .publishing a result false, nextId := s.nextId + 1 }
    | _ => none
  | .publish =>
    match s.stage with
    | .publishing a result fill => some { s with stage := .published a fill, published := s.published ++ [result] }
    | _ => none
  | .settle ok =>
    match s.stage with
    | .published a fill =>
      -- what goes wrong after a failure has been published is caught where it happens
      if fill = false then some (s.finish a false)
      else if ok then some ({ s with consecutiveErrors := 0 }.finish a false)
      else some ((s.handleError settings).finish a false)
    | _ => none
  | .halt stop => some { s with halted := true, stopped := s.stopped || stop }
  | .stop => some { s with stopped := true }

/-! ### One result for each iteration -/

/-- A finished iteration is answered once if its assessment was approved and no halt was found, and else not at all. -/
def Settled (it : Iteration) : Prop :=
  if it.assessment.isApproved = true ∧ it.halted = false then
    ∃ result, it.results = [result] ∧ Answers it.assessment result
  else it.results = []

/-- What the iteration under way has published so far. -/
def StageOk (s : RunLoop) : Prop :=
  match s.stage with
  | .placing a => a.isApproved = true ∧ s.published.length = s.mark
  | .publishing a result _ => a.isApproved = true ∧ Answers a result ∧ s.published.length = s.mark
  | .published a _ => a.isApproved = true ∧ ∃ result, s.published.drop s.mark = [result] ∧ Answers a result
  | _ => True

/-- The invariant of the loop. -/
structure Answered (s : RunLoop) : Prop where
  log : ∀ it ∈ s.log, Settled it
  stage : s.StageOk

private theorem answered_finish {s : RunLoop} {a : RiskAssessment ℚ} {halted : Bool} (hlog : ∀ it ∈ s.log, Settled it)
    (h : Settled ⟨a, halted, s.published.drop s.mark⟩) : (s.finish a halted).Answered := by
  refine ⟨?_, trivial⟩
  intro it hit
  rcases List.mem_append.1 hit with hit | hit
  · exact hlog it hit
  · rw [List.mem_singleton.1 hit]
    exact h

private theorem answered_take {s : RunLoop} (h : s.Answered) (a : RiskAssessment ℚ) :
    (s.takeAssessment a).Answered := by
  have hnone : s.published.drop s.published.length = [] := List.drop_length
  unfold takeAssessment
  dsimp only
  split
  case isTrue => exact ⟨h.log, trivial⟩
  case isFalse =>
    split
    case isTrue =>
      refine answered_finish h.log ?_
      rw [Settled, if_neg (fun hc => Bool.noConfusion hc.2)]
      exact hnone
    case isFalse =>
      split
      case isTrue happroved =>
        refine answered_finish h.log ?_
        rw [Settled, if_neg (fun hc => by rw [happroved] at hc; exact Bool.noConfusion hc.1)]
        exact hnone
      case isFalse happroved => exact ⟨h.log, Bool.eq_true_of_not_eq_false happroved, rfl⟩

private theorem settled_published {s : RunLoop} {a : RiskAssessment ℚ} (happroved : a.isApproved = true)
    (h : ∃ result, s.published.drop s.mark = [result] ∧ Answers a result) :
    Settled ⟨a, false, s.published.drop s.mark⟩ := by
  rw [Settled, if_pos ⟨happroved, rfl⟩]
  exact h

theorem Answered.step {settings : Settings} {s s' : RunLoop} {e : LoopEvent} (h : s.Answered)
    (hs : step settings s e = some s') : s'.Answered := by
  have hstage := h.stage
  cases e with
  | take a =>
    simp only [RunLoop.step] at hs
    split at hs
    case h_1 => cases hs; exact answered_take h a
    case h_2 => cases hs
  | filled result =>
    simp only [RunLoop.step] at hs
    split at hs
    case h_1 a ha =>
      rw [StageOk, ha] at hstage
      split at hs
      case isTrue hfills => cases hs; exact ⟨h.log, hstage.1, hfills.answers, hstage.2⟩
      case isFalse => cases hs
    case h_2 => cases hs
  | raised =>
    simp only [RunLoop.step] at hs
    split at hs
    case h_1 a ha =>
      rw [StageOk, ha] at hstage
      cases hs
      exact ⟨h.log, hstage.1, ⟨rfl, .inr (.inr rfl)⟩, hstage.2⟩
    case h_2 => cases hs
  | publish =>
    simp only [RunLoop.step] at hs
    split at hs
    case h_1 a result fill ha =>
      rw [StageOk, ha] at hstage
      obtain ⟨happroved, hanswers, hmark⟩ := hstage
      cases hs
      exact ⟨h.log, happroved, result, by rw [← hmark, List.drop_left], hanswers⟩
    case h_2 => cases hs
  | settle ok =>
    simp only [RunLoop.step] at hs
    split at hs
    case h_1 a fill ha =>
      rw [StageOk, ha] at hstage
      obtain ⟨happroved, hone⟩ := hstage
      split at hs
      case isTrue => cases hs; exact answered_finish h.log (settled_published happroved hone)
      case isFalse =>
        split at hs
        case isTrue =>
          cases hs
          exact answered_finish h.log (settled_published (s := { s with consecutiveErrors := 0 }) happroved hone)
        case isFalse =>
          cases hs
          exact answered_finish h.log (settled_published (s := s.handleError settings) happroved hone)
    case h_2 => cases hs
  | halt stop => cases hs; exact ⟨h.log, hstage⟩
  | stop => cases hs; exact ⟨h.log, hstage⟩

/-- Once the broker has answered, the iteration publishes one result and ends. -/
theorem iteration_ends {settings : Settings} {s s' : RunLoop} {a : RiskAssessment ℚ} {e : LoopEvent}
    (hstage : s.stage = .placing a) (he : e.isBroker = true) (hs : step settings s e = some s') (ok : Bool) :
    ∃ t, exec (step settings) s' [.publish, .settle ok] = some t ∧ t.stage = .idle ∧
      t.log.length = s.log.length + 1 := by
  have hpublishing : ∃ result fill, s'.stage = .publishing a result fill ∧ s'.log = s.log := by
    cases e with
    | filled result =>
      simp only [RunLoop.step, hstage] at hs
      split at hs
      case isTrue => cases hs; exact ⟨_, _, rfl, rfl⟩
      case isFalse => cases hs
    | raised =>
      simp only [RunLoop.step, hstage] at hs
      cases hs
      exact ⟨_, _, rfl, rfl⟩
    | take a => cases he
    | publish => cases he
    | settle ok => cases he
    | halt stop => cases he
    | stop => cases he
  obtain ⟨result, fill, hs', hlog⟩ := hpublishing
  rw [← hlog]
  cases fill <;> cases ok <;> simp [exec, RunLoop.step, hs', finish, handleError]

end RunLoop

/-- Which approvals are answered, in every run of the loop: an iteration for an approved assessment that found no halt
has published exactly one result, filled or rejected, with its proposal's id; one that found a halt, none.  A running
iteration ends as soon as the broker has answered. -/
theorem approval_answered {settings : Settings} {isPaper : Bool} {es : List LoopEvent} {s : RunLoop}
    (h : exec (RunLoop.step settings) { isPaper := isPaper } es = some s) :
    (∀ it ∈ s.log, it.assessment.isApproved = true →
      (it.halted = false → ∃ result, it.results = [result] ∧ Answers it.assessment result) ∧
        (it.halted = true → it.results = [])) ∧
      ∀ a, s.stage = .placing a → ∀ e s', e.isBroker = true → RunLoop.step settings s e = some s' → ∀ ok,
        ∃ t, exec (RunLoop.step settings) s' [.publish, .settle ok] = some t ∧ t.stage = .idle ∧
          t.log.length = s.log.length + 1 := by
  have hanswered : s.Answered := by
    refine exec_invariant RunLoop.Answered (fun s e s' hs hstep => hs.step hstep) ?_ h
    exact ⟨by simp, trivial⟩
  constructor
  · intro it hit happroved
    have hsettled := hanswered.log it hit
    constructor
    · intro hhalted
      rwa [RunLoop.Settled, if_pos ⟨happroved, hhalted⟩] at hsettled
    · intro hhalted
      rwa [RunLoop.Settled, if_neg (fun hc => by rw [hhalted] at hc; exact Bool.noConfusion hc.2)] at hsettled
  · intro a hstage e s' he hs ok
    exact RunLoop.iteration_ends hstage he hs ok

/-- An approved order. -/
def loopOrder : RiskAssessment ℚ := plainOrder 1 "BTC/USDT" .buy 200 two_hundred_pos 100

private theorem exec_raised :
    (exec (RunLoop.step defaultSettings) { isPaper := true }
      [.take loopOrder, .halt false, .raised, .publish, .settle false]).map
        (fun s => s.log.map fun it => (it.assessment.isApproved, it.halted)) = some [(true, false)] := by
  decide +kernel

/-- An order that raises is answered, also when a halt has come in meanwhile. -/
theorem approval_answered_raised : ∃ s it,
    exec (RunLoop.step defaultSettings) { isPaper := true }
      [.take loopOrder, .halt false, .raised, .publish, .settle false] = some s ∧
      it ∈ s.log ∧ ∃ result, it.results = [result] ∧ Answers it.assessment result := by
  obtain ⟨s, hs, hlog⟩ := Option.map_eq_some_iff.1 exec_raised
  obtain ⟨it, rest, hit, hvalues, -⟩ := List.map_eq_cons_iff.1 hlog
  obtain ⟨happroved, hhalted⟩ := Prod.mk.inj hvalues
  have hmem : it ∈ s.log := by rw [hit]; exact List.mem_cons_self
  exact ⟨s, it, hs, hmem, ((approval_answered hs).1 it hmem happroved).1 hhalted⟩

/-- With a halt in force, an agent that goes on takes an approved order and answers nothing. -/
theorem approval_skipped_when_halted : ∃ s it,
    exec (RunLoop.step defaultSettings) { isPaper := true } [.halt false, .take loopOrder] = some s ∧
      s.stopped = false ∧ s.log = [it] ∧ it.assessment.isApproved = true ∧ s.published = [] := by
  have hrun : (exec (RunLoop.step defaultSettings) { isPaper := true } [.halt false, .take loopOrder]).map
      (fun s => (s.stopped, s.log.map fun it => it.assessment.isApproved, s.published)) =
        some (false, [true], []) := by decide +kernel
  obtain ⟨s, hs, hvalues⟩ := Option.map_eq_some_iff.1 hrun
  simp only [Prod.mk.injEq] at hvalues
  obtain ⟨hstopped, hlog, hpublished⟩ := hvalues
  obtain ⟨it, rest, hit, happroved, hrest⟩ := List.map_eq_cons_iff.1 hlog
  obtain rfl := List.map_eq_nil_iff.1 hrest
  exact ⟨s, it, hs, hstopped, hit, happroved, hpublished⟩

end MultiAgentTrading
