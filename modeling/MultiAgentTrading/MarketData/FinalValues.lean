import MultiAgentTrading.MarketData.Feed

/-!
# The values of the published candles

`closed_candles` judges a row by the clock when the response is processed, but the values in it are from when the
exchange read it.  If the period of a row ends in between, the row is published as it was read, and the normaliser then
drops the final one as a duplicate.  `published_values_final_iff`: this is the only way in which a published candle can
have other values than its final ones.
-/

namespace MultiAgentTrading

namespace CandleHistory

variable {key : String × String} (h : CandleHistory key)

/-- The values of a row when its period has ended. -/
def final (k : ℕ) : OHLCVCandle := h.row k (h.closeTime k)

/-- The row gets its final values at the end of its period, not before. -/
def ChangesUntilClosed (k : ℕ) : Prop := ∀ t, h.row k t = h.final k ↔ h.closeTime k ≤ t

end CandleHistory

/-- The response has a row that was read before it closed and is kept when it is processed. -/
def Fetch.KeepsForming (x : Exchange) (f : Fetch) : Prop :=
  ∃ k ∈ f.rows, (x f.key).ChangesUntilClosed k ∧ f.responseTime < (x f.key).closeTime k ∧ f.Keeps x k

namespace Feed

/-- Whatever changes until it has closed is published with its final values, and is published once a response has it
with these, also if earlier responses had it before. -/
structure PublishesFinal (x : Exchange) (key : String × String) (fetches : List Fetch) : Prop where
  values : ∀ p ∈ (run x fetches).publishedFor key, ∀ k, (x key).ChangesUntilClosed k →
    p.candle.timestamp = (x key).openTime k → p.candle = (x key).final k
  delivered : ∀ f ∈ fetches, f.key = key → ∀ k ∈ f.rows, (x key).ChangesUntilClosed k →
    (x key).closeTime k ≤ f.responseTime → ∃ p ∈ (run x fetches).publishedFor key, p.candle = (x key).final k

/-- What a response keeps is published by it or has been published by an earlier one, so as it was read by then. -/
private theorem read_of_keeps {x : Exchange} {key : String × String} {fetches before after : List Fetch} {f : Fetch}
    (hsorted : (fetches.filter fun f => f.key = key).Pairwise fun f f' => f.responseTime ≤ f'.responseTime)
    (hsplit : fetches = before ++ f :: after) (hkey : f.key = key) {k : ℕ} (hk : k ∈ f.rows) (hkeeps : f.Keeps x k) :
    ∃ p ∈ (run x fetches).publishedFor key, ∃ t ≤ f.responseTime, p.candle = (x key).row k t := by
  subst hkey
  have hsourced := sourced_run x f.key (before ++ [f])
  obtain ⟨p, hp, ht⟩ := hsourced.kept f (by simp) rfl k (Fetch.mem_keptRows.2 ⟨hk, hkeeps⟩)
  obtain ⟨hfetch, hkey, k', -, hrow⟩ := hsourced.origin p hp
  rw [hkey] at hrow
  have hopen : (x f.key).openTime k' = (x f.key).openTime k := by
    rw [← ht, hrow]
    exact ((x f.key).row_timestamp k' _).symm
  rw [(x f.key).openTime_strictMono.injective hopen] at hrow
  refine ⟨p, ?_, p.fetch.responseTime, ?_, hrow⟩
  · have hrun : fetches = before ++ [f] ++ after := by simp [hsplit]
    rw [hrun]
    exact publishedFor_subset_run x f.key (before ++ [f]) after hp
  · rcases List.mem_append.1 hfetch with hbefore | hlast
    · rw [hsplit, List.filter_append] at hsorted
      have hf : f ∈ (f :: after).filter fun f' => f'.key = f.key := by simp
      exact (List.pairwise_append.1 hsorted).2.2 _ (List.mem_filter.2 ⟨hbefore, decide_eq_true hkey⟩) f hf
    · rw [List.mem_singleton.1 hlast]

end Feed

/-- For a symbol and timeframe fetched in order among any others: published candles have their final values, and the
final values of what has closed are published, exactly if no response has a row that was read before it closed and is
kept when it is processed. -/
theorem published_values_final_iff (x : Exchange) {key : String × String} {fetches : List Fetch}
    (hsorted : (fetches.filter fun f => f.key = key).Pairwise fun f f' => f.responseTime ≤ f'.responseTime)
    (hprocessed : ∀ f ∈ fetches, f.key = key → f.responseTime ≤ f.processedAt) :
    Feed.PublishesFinal x key fetches ↔ ∀ f ∈ fetches, f.key = key → ¬f.KeepsForming x := by
  constructor
  · rintro hfinal f hf hkey ⟨k, hk, hchanges, hread, hkeeps⟩
    obtain ⟨before, after, hsplit⟩ := List.append_of_mem hf
    obtain ⟨p, hp, t, ht, hrow⟩ := Feed.read_of_keeps hsorted hsplit hkey hk hkeeps
    subst hkey
    have hstamp : p.candle.timestamp = (x f.key).openTime k := by
      rw [hrow]
      exact (x f.key).row_timestamp k t
    have hvalues := hfinal.values p hp k hchanges hstamp
    rw [hrow] at hvalues
    exact absurd ((hchanges t).1 hvalues) (not_le.2 (ht.trans_lt hread))
  · intro hnone
    have hsourced := Feed.sourced_run x key fetches
    have hmono := (x key).openTime_strictMono
    -- a kept row that changes had closed when it was read
    have hvalues : ∀ p ∈ (Feed.run x fetches).publishedFor key, ∀ k, (x key).ChangesUntilClosed k →
        p.candle.timestamp = (x key).openTime k → p.candle = (x key).final k := by
      intro p hp k hchanges ht
      obtain ⟨hfetch, hkey, k', hk', hrow⟩ := hsourced.origin p hp
      subst hkey
      have hopen : (x p.fetch.key).openTime k' = (x p.fetch.key).openTime k := by
        rw [← ht, hrow]
        exact ((x p.fetch.key).row_timestamp k' _).symm
      rw [hmono.injective hopen] at hk' hrow
      obtain ⟨hrows, hkeeps⟩ := Fetch.mem_keptRows.1 hk'
      rw [hrow, hchanges]
      by_contra hearly
      exact hnone p.fetch hfetch rfl ⟨k, hrows, hchanges, not_le.1 hearly, hkeeps⟩
    refine ⟨hvalues, ?_⟩
    intro f hf hkey k hk hchanges hread
    subst hkey
    have hkeeps : f.Keeps x k := .inr (hread.trans (hprocessed f hf rfl))
    obtain ⟨p, hp, ht⟩ := hsourced.kept f hf rfl k (Fetch.mem_keptRows.2 ⟨hk, hkeeps⟩)
    exact ⟨p, hp, hvalues p hp k hchanges ht⟩

/-- Two polls, the second a minute after the first, each with its newest closed row read a second after the close. -/
def readAfterClose : List Fetch :=
  [⟨("BTC/USDT", "1m"), [0, 1, 2], 121, 122⟩, ⟨("BTC/USDT", "1m"), [1, 2, 3], 181, 182⟩]

theorem published_values_final_readAfterClose :
    ((Feed.run steadyExchange readAfterClose).publishedFor ("BTC/USDT", "1m")).length = 3 ∧
      Feed.PublishesFinal steadyExchange ("BTC/USDT", "1m") readAfterClose := by
  have hclosed : ∀ f ∈ readAfterClose, ∀ k ∈ f.rows,
      ¬(f.responseTime < (steadyExchange f.key).closeTime k ∧ f.Keeps steadyExchange k) := by decide +kernel
  refine ⟨by decide +kernel, ?_⟩
  refine (published_values_final_iff steadyExchange (by decide +kernel) (by decide +kernel)).2 ?_
  rintro f hf - ⟨k, hk, -, hread, hkeeps⟩
  exact hclosed f hf k hk ⟨hread, hkeeps⟩

/-- Every row of the steady exchange changes until it has closed. -/
theorem steadyExchange_changesUntilClosed (key : String × String) (k : ℕ) :
    (steadyExchange key).ChangesUntilClosed k := by
  intro t
  have hpos : (0 : ℚ) < timeframeSeconds key.2 := Nat.cast_pos.2 (timeframeSeconds_pos key.2)
  have hclose : (steadyExchange key).closeTime k = 0 + k * timeframeSeconds key.2 + timeframeSeconds key.2 := rfl
  have hvolume : ∀ t, ((steadyExchange key).row k t).volume =
      max 0 (min (t - k * timeframeSeconds key.2) (timeframeSeconds key.2)) := fun _ => rfl
  constructor
  · intro hfinal
    have hsame := congrArg OHLCVCandle.volume hfinal
    rw [CandleHistory.final, hvolume, hvolume, hclose] at hsame
    rw [hclose]
    by_contra hlt
    rw [not_le] at hlt
    rw [min_eq_left (by linarith), min_eq_right (by linarith), max_eq_right hpos.le] at hsame
    rcases max_choice 0 (t - k * (timeframeSeconds key.2 : ℚ)) with hzero | hpart <;> linarith
  · intro hle
    rw [hclose] at hle
    have hfull : ∀ t : ℚ, 0 + k * (timeframeSeconds key.2 : ℚ) + timeframeSeconds key.2 ≤ t →
        max 0 (min (t - k * timeframeSeconds key.2) (timeframeSeconds key.2 : ℚ)) = timeframeSeconds key.2 :=
      fun t ht => by rw [min_eq_right (by linarith), max_eq_right hpos.le]
    have hvolumes := (hfull t hle).trans (hfull _ le_rfl).symm
    show flatCandle _ _ _ _ _ _ = flatCandle _ _ _ _ _ _
    congr 1

/-- A row read a second before it closes and processed a second after, and a poll that has it again later. -/
def readBeforeClose : List Fetch := [⟨("BTC/USDT", "1m"), [0], 59, 61⟩, ⟨("BTC/USDT", "1m"), [0, 1, 2], 121, 122⟩]

theorem published_values_not_final :
    ¬ ∀ (x : Exchange) (key : String × String) (fetches : List Fetch),
      ((fetches.filter fun f => f.key = key).Pairwise fun f f' => f.responseTime ≤ f'.responseTime) →
        (∀ f ∈ fetches, f.key = key → f.responseTime ≤ f.processedAt) → Feed.PublishesFinal x key fetches := by
  intro h
  have hfinal := h steadyExchange ("BTC/USDT", "1m") readBeforeClose (by decide +kernel) (by decide +kernel)
  have hvalues := hfinal.values ⟨(steadyExchange ("BTC/USDT", "1m")).row 0 59, ⟨("BTC/USDT", "1m"), [0], 59, 61⟩⟩
    (by decide +kernel) 0 (steadyExchange_changesUntilClosed _ 0) rfl
  revert hvalues
  decide +kernel

end MultiAgentTrading
