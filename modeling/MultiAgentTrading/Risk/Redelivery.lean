import MultiAgentTrading.Lib.Recent
import MultiAgentTrading.Risk.Agent

/-!
# Redelivered results

The risk agent remembers the ids of the results it has applied, up to a thousand.  Along a run the memory is the newest
part of the log of first applications, so `redelivered_result_is_duplicate` has the exact window in which a result
that is delivered again changes nothing.
-/

namespace MultiAgentTrading

namespace RiskAgent

theorem settle_ne_duplicate (m : DrawdownMonitor) (result : ExecutionResult) : (settle m result).1 ≠ .duplicate := by
  unfold settle
  dsimp only
  split_ifs <;> simp

/-- A result is a duplicate exactly if its id is remembered. -/
theorem duplicate_iff {a : RiskAgent} {result : ExecutionResult} :
    (a.applyExecutionResult result).1 = .duplicate ↔ result.resultId ∈ a.seenResults.keys := by
  rw [← Dict.contains_iff]
  unfold applyExecutionResult
  split
  case isTrue hseen => exact iff_of_true rfl hseen
  case isFalse hnew => exact iff_of_false (settle_ne_duplicate _ _) hnew

/-- A duplicate changes nothing. -/
theorem applyExecutionResult_of_duplicate {a : RiskAgent} {result : ExecutionResult}
    (h : (a.applyExecutionResult result).1 = .duplicate) : a.applyExecutionResult result = (.duplicate, a) := by
  have hseen := Dict.contains_iff.2 (duplicate_iff.1 h)
  unfold applyExecutionResult
  rw [if_pos hseen]

/-- The memory is the newest part of a log of ids. -/
def Remembers (a : RiskAgent) (log : List ℕ) : Prop :=
  a.seenResults.entries = Recent.keep seenResultsMax (log.map fun id => (id, ()))

theorem Remembers.mem_keys_iff {a : RiskAgent} {log : List ℕ} (h : a.Remembers log) {id : ℕ} :
    id ∈ a.seenResults.keys ↔ id ∈ Recent.keep seenResultsMax log := by
  have hkeys : a.seenResults.keys = Recent.keep seenResultsMax log := by
    rw [Dict.keys, h, Recent.map_keep, List.map_map]
    congr 1
    exact List.map_id' log
  rw [hkeys]

/-- A result that is applied for the first time is remembered, and a duplicate is not. -/
theorem Remembers.apply {a : RiskAgent} {log : List ℕ} (h : a.Remembers log) (result : ExecutionResult) :
    (a.applyExecutionResult result).2.Remembers
      (log ++ if (a.applyExecutionResult result).1 = .duplicate then [] else [result.resultId]) := by
  by_cases hdup : (a.applyExecutionResult result).1 = .duplicate
  · rw [if_pos hdup, applyExecutionResult_of_duplicate hdup, List.append_nil]
    exact h
  · rw [if_neg hdup]
    have hnew : a.seenResults.get? result.resultId = none :=
      Dict.get?_eq_none_iff.2 (mt duplicate_iff.2 hdup)
    have hseen : ¬a.seenResults.contains result.resultId = true := by
      rw [Dict.contains_iff, ← Dict.get?_eq_none_iff]
      exact hnew
    have hentries := Recent.entries_put h hnew ()
    unfold Remembers applyExecutionResult
    rw [if_neg hseen, List.map_append]
    exact hentries

end RiskAgent

namespace RiskOp

/-- The id of the result that a call applies and does not answer with `duplicate`. -/
def freshId (a : RiskAgent) : RiskOp → List ℕ
  | .evaluate _ _ _ _ => []
  | .apply result => if (a.applyExecutionResult result).1 = .duplicate then [] else [result.resultId]
  | .halt => []

/-- The ids of the results that a run applies and does not answer with `duplicate`. -/
def freshIds (risk : RiskSettings) : RiskAgent → List RiskOp → List ℕ
  | _, [] => []
  | a, op :: ops => freshId a op ++ freshIds risk (op.run risk a) ops

private theorem remembers_foldl {risk : RiskSettings} {a : RiskAgent} {log : List ℕ} (h : a.Remembers log)
    (ops : List RiskOp) : (ops.foldl (run risk) a).Remembers (log ++ freshIds risk a ops) := by
  induction ops generalizing a log with
  | nil => rwa [freshIds, List.append_nil]
  | cons op ops ih =>
    rw [freshIds, ← List.append_assoc]
    refine ih ?_
    cases op with
    | evaluate p assessmentId resetTime ageTime =>
      have hsame := (RiskAgent.evaluate_answers risk a p assessmentId resetTime ageTime).seenResults
      rw [freshId, List.append_nil]
      exact (congrArg Dict.entries hsame).trans h
    | apply result => exact h.apply result
    | halt =>
      rw [freshId, List.append_nil]
      exact h

end RiskOp

/-- A result that was applied, and not answered with `duplicate` then or since, is a duplicate when it is delivered
again after fewer than a thousand others, and changes nothing; after a thousand others it is not. -/
theorem redelivered_result_is_duplicate (settings : Settings) (now : ℚ) (before after : List RiskOp)
    {result redelivered : ExecutionResult} (hid : redelivered.resultId = result.resultId) :
    let a := before.foldl (RiskOp.run settings.risk) (RiskAgent.init settings now)
    let a' := after.foldl (RiskOp.run settings.risk) (a.applyExecutionResult result).2
    let others := RiskOp.freshIds settings.risk (a.applyExecutionResult result).2 after
    (a.applyExecutionResult result).1 ≠ .duplicate → result.resultId ∉ others →
      (others.length < 1000 → a'.applyExecutionResult redelivered = (.duplicate, a')) ∧
        (1000 ≤ others.length → (a'.applyExecutionResult redelivered).1 ≠ .duplicate) := by
  intro a a' others hfirst hlast
  have hinit : (RiskAgent.init settings now).Remembers [] := rfl
  have hbefore : a.Remembers _ := RiskOp.remembers_foldl hinit before
  have happlied := hbefore.apply result
  rw [if_neg hfirst] at happlied
  have hafter : a'.Remembers _ := RiskOp.remembers_foldl happlied after
  refine ⟨fun hfew => ?_, fun hmany => ?_⟩
  · refine RiskAgent.applyExecutionResult_of_duplicate (RiskAgent.duplicate_iff.2 ?_)
    rw [hid]
    rw [hafter.mem_keys_iff, List.append_assoc]
    exact Recent.mem_keep hfew
  · replace hmany : RiskAgent.seenResultsMax ≤ others.length := hmany
    rw [Ne, RiskAgent.duplicate_iff, hid, hafter.mem_keys_iff, Recent.keep_append_of_le hmany]
    exact fun hmem => hlast (Recent.keep_subset _ _ hmem)

/-- A buy that fills `quantity` at 100. -/
def buyResult (resultId : ℕ) (symbol : String) (quantity : ℚ) : ExecutionResult where
  resultId := resultId
  proposalId := resultId
  assessmentId := resultId
  symbol := symbol
  side := .buy
  orderType := .market
  status := .filled
  requestedQuantity := quantity
  filledQuantity := quantity
  totalCostUsd := some (100 * quantity)
  isPaper := true

/-- The position is closed in between by a sell. -/
theorem redelivered_result_is_duplicate_afterClose :
    let a := RiskAgent.init defaultSettings 0
    let closed : List RiskOp := [.apply { buyResult 2 "BTC/USDT" 1 with side := .sell, realizedPnlUsd := some 5 }]
    let a' := closed.foldl (RiskOp.run defaultSettings.risk) (a.applyExecutionResult (buyResult 1 "BTC/USDT" 1)).2
    a'.drawdown.state.openPositions.keys = [] ∧
      a'.applyExecutionResult (buyResult 1 "BTC/USDT" 1) = (.duplicate, a') := by
  intro a closed a'
  refine ⟨by decide +kernel, ?_⟩
  exact (redelivered_result_is_duplicate defaultSettings 0 [] closed rfl (by decide +kernel) (by decide +kernel)).1
    (by decide +kernel)

end MultiAgentTrading
