import MultiAgentTrading.MarketData.Reprocessing

/-!
# Candles whose publication failed

`_publish_candle` swallows a failure of the bus, and the normaliser has remembered the candle by then.  A poll whose
response still has the row takes it for a duplicate as long as its timestamp is among the 200 that are remembered:
`failed_publication_retried_iff` says that a run of polls loses nothing exactly if, whenever it comes to a row whose
last publication failed, 200 others of the same symbol and timeframe have been tried since.
-/

namespace MultiAgentTrading

/-- A round of `_poll_ohlcv` for one symbol and timeframe: the response, when it is processed, and whether the bus fails
on the first, the second, … candle that is handed to it. -/
structure Poll where
  key : String × String
  response : List OHLCVCandle
  processedAt : ℚ
  fails : ℕ → Bool
  response_key : ∀ c ∈ response, (c.symbol, c.timeframe) = key

namespace Poll

/-- The timestamps of the rows that have closed. -/
def closed (p : Poll) : List ℚ := (closedCandles p.response p.processedAt).map OHLCVCandle.timestamp

private theorem olderThan_key (p : Poll) (t : ℚ) :
    ∀ c ∈ p.response.filter fun c => c.timestamp < t, (c.symbol, c.timeframe) = p.key := fun c hc =>
  p.response_key c (List.mem_of_mem_filter hc)

/-- The rows that a poll comes to before those with timestamp `t`. -/
def olderThan (p : Poll) (t : ℚ) : Poll where
  key := p.key
  response := p.response.filter fun c => c.timestamp < t
  processedAt := p.processedAt
  fails := p.fails
  response_key := p.olderThan_key t

end Poll

/-- A candle that has been handed to the bus, and whether the bus failed. -/
structure Attempt where
  candle : OHLCVCandle
  failed : Bool
  deriving DecidableEq

/-- The normaliser and all that has been handed to the bus. -/
structure Publisher where
  normaliser : OHLCVNormaliser
  attempts : List Attempt := []

namespace Publisher

/-- The candles are remembered whether or not the bus takes them. -/
def poll (s : Publisher) (p : Poll) : Publisher :=
  let out := MarketDataAgent.pollOhlcv s.normaliser p.response p.processedAt
  { normaliser := out.2, attempts := s.attempts ++ out.1.mapIdx fun i c => ⟨c, p.fails i⟩ }

/-- Polls of any symbols and timeframes in any order, from any state of the normaliser. -/
def run (n : OHLCVNormaliser) (polls : List Poll) : Publisher := polls.foldl poll ⟨n, []⟩

/-- Whether a poll hands a candle with timestamp `t` to the bus. -/
def Offers (s : Publisher) (p : Poll) (t : ℚ) : Prop :=
  t ∈ (MarketDataAgent.pollOhlcv s.normaliser p.response p.processedAt).1.map OHLCVCandle.timestamp

/-- The attempts to publish the candle of a symbol and timeframe with timestamp `t`. -/
def attemptsOn (s : Publisher) (key : String × String) (t : ℚ) : List Attempt :=
  s.attempts.filter fun a => (a.candle.symbol, a.candle.timeframe) = key ∧ a.candle.timestamp = t

/-- The last publication of the candle failed. -/
def Outstanding (s : Publisher) (key : String × String) (t : ℚ) : Prop :=
  ∃ a, (s.attemptsOn key t).getLast? = some a ∧ a.failed = true

/-- The timestamps that have been handed to the bus for a symbol and timeframe. -/
def offered (s : Publisher) (key : String × String) : List ℚ :=
  (s.attempts.filter fun a => (a.candle.symbol, a.candle.timeframe) = key).map fun a => a.candle.timestamp

/-- No failed publication loses a candle: a poll whose response has a closed row whose last publication failed hands it
to the bus again; and if all publications of a candle failed, no response after the last of them had its closed row. -/
structure LosesNothing (n : OHLCVNormaliser) (polls : List Poll) : Prop where
  retried : ∀ before q after, polls = before ++ q :: after → ∀ t ∈ q.closed,
    (run n before).Outstanding q.key t → (run n before).Offers q t
  gap : ∀ key t, (run n polls).attemptsOn key t ≠ [] → (∀ a ∈ (run n polls).attemptsOn key t, a.failed = true) →
    ∃ before q after, polls = before ++ q :: after ∧ q.key = key ∧ (run n before).Offers q t ∧
      ∀ p ∈ after, p.key = key → t ∉ p.closed

/-- Whenever a poll comes to a closed row whose last publication failed, at least `dedupBufferSize` other publications
of its symbol and timeframe have been tried since. -/
def FailuresForgotten (n : OHLCVNormaliser) (polls : List Poll) : Prop :=
  ∀ before q after, polls = before ++ q :: after → ∀ t ∈ q.closed, (run n before).Outstanding q.key t →
    dedupBufferSize ≤ Recent.since t (((run n before).poll (q.olderThan t)).offered q.key)

/-! ### What a poll adds -/

variable (s : Publisher) (p : Poll)

private theorem closed_key : ∀ c ∈ closedCandles p.response p.processedAt, (c.symbol, c.timeframe) = p.key :=
  fun c hc => p.response_key c (List.mem_of_mem_filter hc)

/-- The normaliser goes through the closed rows as a filter of timestamps. -/
private theorem pollOhlcv_pass (n : OHLCVNormaliser) :
    (MarketDataAgent.pollOhlcv n p.response p.processedAt).1.map OHLCVCandle.timestamp =
        (Recent.pass dedupBufferSize (n.seenFor p.key)
          (OHLCVNormaliser.ascending (closedCandles p.response p.processedAt))).1 ∧
      (MarketDataAgent.pollOhlcv n p.response p.processedAt).2.seenFor p.key =
        (Recent.pass dedupBufferSize (n.seenFor p.key)
          (OHLCVNormaliser.ascending (closedCandles p.response p.processedAt))).2 :=
  n.processBatch_pass (closed_key p)

private theorem seenFor_poll_of_ne {key : String × String} (hne : key ≠ p.key) :
    (s.poll p).normaliser.seenFor key = s.normaliser.seenFor key := by
  show (OHLCVNormaliser.processBatch _ _).2.seenFor key = _
  rw [OHLCVNormaliser.processBatch_eq _ (closed_key p), OHLCVNormaliser.seenFor_emit_of_ne hne]

/-- The attempts of a poll, and their candles. -/
private theorem attempts_poll : ∃ tried, (s.poll p).attempts = s.attempts ++ tried ∧
    tried.map Attempt.candle = (MarketDataAgent.pollOhlcv s.normaliser p.response p.processedAt).1 ∧
    ∀ a ∈ tried, (a.candle.symbol, a.candle.timeframe) = p.key := by
  have hcandles : ∀ (cs : List OHLCVCandle) (fails : ℕ → Bool),
      (cs.mapIdx fun i c => (⟨c, fails i⟩ : Attempt)).map Attempt.candle = cs := by
    intro cs
    induction cs with
    | nil => exact fun _ => rfl
    | cons c cs ih =>
      intro fails
      rw [List.mapIdx_cons, List.map_cons, ih fun i => fails (i + 1)]
  refine ⟨_, rfl, hcandles _ _, fun a ha => closed_key p _ ?_⟩
  have hcandle := List.mem_map_of_mem (f := Attempt.candle) ha
  rw [hcandles] at hcandle
  exact OHLCVNormaliser.mem_of_processBatch hcandle

theorem offered_poll (key : String × String) :
    (s.poll p).offered key = s.offered key ++
      if p.key = key then (MarketDataAgent.pollOhlcv s.normaliser p.response p.processedAt).1.map OHLCVCandle.timestamp
      else [] := by
  obtain ⟨tried, hattempts, hcandles, hkey⟩ := attempts_poll s p
  rw [offered, hattempts, List.filter_append, List.map_append, ← offered, ← hcandles, List.map_map]
  congr 1
  split
  case isTrue hp =>
    rw [List.filter_eq_self.2 fun a ha => decide_eq_true ((hkey a ha).trans hp)]
    rfl
  case isFalse hp =>
    rw [List.filter_eq_nil_iff.2 fun a ha h => hp ((hkey a ha).symm.trans (of_decide_eq_true h))]
    rfl

/-- A poll that does not hand the candle to the bus adds no attempt on it. -/
theorem attemptsOn_poll {key : String × String} {t : ℚ} (h : ¬(p.key = key ∧ s.Offers p t)) :
    (s.poll p).attemptsOn key t = s.attemptsOn key t := by
  obtain ⟨tried, hattempts, hcandles, hkey⟩ := attempts_poll s p
  rw [attemptsOn, hattempts, List.filter_append, ← attemptsOn]
  have hnone : tried.filter (fun a => (a.candle.symbol, a.candle.timeframe) = key ∧ a.candle.timestamp = t) = [] := by
    refine List.filter_eq_nil_iff.2 fun a ha hmatch => h ?_
    obtain ⟨hakey, hat⟩ := of_decide_eq_true hmatch
    refine ⟨(hkey a ha).symm.trans hakey, ?_⟩
    rw [Offers, ← hcandles, List.map_map]
    exact List.mem_map.2 ⟨a, ha, hat⟩
  rw [hnone, List.append_nil]

theorem run_append (n : OHLCVNormaliser) (polls : List Poll) (p : Poll) :
    run n (polls ++ [p]) = (run n polls).poll p := by
  rw [run, List.foldl_append]
  rfl

/-! ### The memory -/

/-- Once a candle has been handed to the bus, the normaliser remembers the newest timestamps of its start and of all
that have been. -/
def Remembers (n : OHLCVNormaliser) (s : Publisher) (key : String × String) : Prop :=
  s.normaliser.seenFor key =
    if s.offered key = [] then n.seenFor key else Recent.keep dedupBufferSize (n.seenFor key ++ s.offered key)

theorem Remembers.poll {n : OHLCVNormaliser} {s : Publisher} {key : String × String} (h : Remembers n s key)
    (p : Poll) : Remembers n (s.poll p) key := by
  unfold Remembers
  rw [offered_poll]
  by_cases hp : p.key = key
  · subst hp
    obtain ⟨hout, hseen⟩ := pollOhlcv_pass p s.normaliser
    rw [if_pos rfl, show (s.poll p).normaliser.seenFor p.key = _ from hseen, hout]
    by_cases hnil : (Recent.pass dedupBufferSize (s.normaliser.seenFor p.key)
        (OHLCVNormaliser.ascending (closedCandles p.response p.processedAt))).1 = []
    · rw [Recent.memory_pass_of_eq_nil hnil, hnil, List.append_nil]
      exact h
    · rw [Recent.memory_pass_of_ne_nil hnil, if_neg (List.append_ne_nil_of_right_ne_nil _ hnil)]
      unfold Remembers at h
      split at h
      case isTrue hfirst => rw [h, hfirst, List.nil_append]
      case isFalse => rw [h, Recent.keep_keep_append, List.append_assoc]
  · rw [if_neg hp, List.append_nil, seenFor_poll_of_ne s p (Ne.symm hp)]
    exact h

theorem remembers_run (n : OHLCVNormaliser) (polls : List Poll) (key : String × String) :
    Remembers n (run n polls) key := by
  induction polls using List.reverseRecOn with
  | nil => rfl
  | append_singleton polls p ih =>
    rw [run_append]
    exact ih.poll p

/-- A candle that has been handed to the bus is remembered as long as fewer than `dedupBufferSize` others have been
since. -/
theorem Remembers.mem_iff {n : OHLCVNormaliser} {s : Publisher} {key : String × String} (h : Remembers n s key) {t : ℚ}
    (ht : t ∈ s.offered key) :
    t ∈ s.normaliser.seenFor key ↔ Recent.since t (s.offered key) < dedupBufferSize := by
  rw [h, if_neg (List.ne_nil_of_mem ht), Recent.mem_keep_iff_since ht]

private theorem closed_olderThan (t : ℚ) : closedCandles (p.olderThan t).response p.processedAt =
    (closedCandles p.response p.processedAt).filter fun c => c.timestamp < t := by
  show closedCandles (p.response.filter fun c => c.timestamp < t) p.processedAt = _
  rw [closedCandles, closedCandles, List.filter_filter, List.filter_filter]
  exact List.filter_congr fun c _ => Bool.and_comm _ _

private theorem lt_of_mem_older {cs : List OHLCVCandle} {t t' : ℚ}
    (h : t' ∈ OHLCVNormaliser.ascending (cs.filter fun c => c.timestamp < t)) : t' < t := by
  obtain ⟨c, hc, rfl⟩ := List.mem_map.1 ((OHLCVNormaliser.ascending_perm _).mem_iff.1 h)
  exact of_decide_eq_true (List.mem_filter.1 hc).2

/-- The older rows come first. -/
private theorem ascending_split (cs : List OHLCVCandle) (t : ℚ) :
    OHLCVNormaliser.ascending cs = OHLCVNormaliser.ascending (cs.filter fun c => c.timestamp < t) ++
      (OHLCVNormaliser.ascending cs).filter fun t' => !decide (t' < t) := by
  have holder : (OHLCVNormaliser.ascending (cs.filter fun c => c.timestamp < t)).Perm
      ((OHLCVNormaliser.ascending cs).filter fun t' => t' < t) := by
    have hfilter := (OHLCVNormaliser.ascending_perm cs).filter fun t' => t' < t
    rw [List.filter_map] at hfilter
    exact (OHLCVNormaliser.ascending_perm _).trans hfilter.symm
  have hsorted : (OHLCVNormaliser.ascending (cs.filter fun c => c.timestamp < t) ++
      (OHLCVNormaliser.ascending cs).filter fun t' => !decide (t' < t)).Pairwise (· ≤ ·) := by
    refine List.pairwise_append.2 ⟨OHLCVNormaliser.sorted_ascending _,
      (OHLCVNormaliser.sorted_ascending cs).filter _, fun a ha b hb => ?_⟩
    have hb' : ¬b < t := by simpa using (List.mem_filter.1 hb).2
    exact (lt_of_mem_older ha).le.trans (not_lt.1 hb')
  exact List.Perm.eq_of_pairwise' (OHLCVNormaliser.sorted_ascending cs) hsorted
    ((List.filter_append_perm _ _).symm.trans (holder.symm.append_right _))

/-- A poll hands a closed row to the bus if and only if its timestamp is not remembered when its turn comes. -/
theorem offers_iff {t : ℚ} (ht : t ∈ p.closed) :
    s.Offers p t ↔ t ∉ (s.poll (p.olderThan t)).normaliser.seenFor p.key := by
  have hout := (pollOhlcv_pass p s.normaliser).1
  have hseen := (pollOhlcv_pass (p.olderThan t) s.normaliser).2
  rw [show (p.olderThan t).processedAt = p.processedAt from rfl, closed_olderThan] at hseen
  rw [Offers, hout, ascending_split _ t, show (s.poll (p.olderThan t)).normaliser.seenFor p.key = _ from hseen]
  refine Recent.mem_pass_append_iff (fun y hy => lt_of_mem_older hy) (fun y hy => ?_)
    ((OHLCVNormaliser.sorted_ascending _).filter _) (List.mem_filter.2 ⟨?_, ?_⟩)
  · have hy' : ¬y < t := by simpa using (List.mem_filter.1 hy).2
    exact not_lt.1 hy'
  · exact (OHLCVNormaliser.ascending_perm _).mem_iff.2 ht
  · rw [decide_eq_false (lt_irrefl t)]
    rfl

theorem mem_offered_of_attemptsOn {s : Publisher} {key : String × String} {t : ℚ} {a : Attempt}
    (h : a ∈ s.attemptsOn key t) : t ∈ s.offered key := by
  obtain ⟨ha, hmatch⟩ := List.mem_filter.1 h
  obtain ⟨hkey, rfl⟩ := of_decide_eq_true hmatch
  exact List.mem_map.2 ⟨a, List.mem_filter.2 ⟨ha, decide_eq_true hkey⟩, rfl⟩

/-- A poll tries a failed candle again if and only if at least `dedupBufferSize` others have been tried since. -/
theorem offers_iff_forgotten (n : OHLCVNormaliser) (before : List Poll) (q : Poll) {t : ℚ} (ht : t ∈ q.closed)
    (hfailed : (run n before).Outstanding q.key t) :
    (run n before).Offers q t ↔
      dedupBufferSize ≤ Recent.since t (((run n before).poll (q.olderThan t)).offered q.key) := by
  obtain ⟨a, ha, -⟩ := hfailed
  have hoffered : t ∈ ((run n before).poll (q.olderThan t)).offered q.key := by
    rw [offered_poll]
    exact List.mem_append_left _ (mem_offered_of_attemptsOn (List.mem_of_getLast? ha))
  rw [offers_iff _ q ht, ((remembers_run n before q.key).poll (q.olderThan t)).mem_iff hoffered, not_lt]

/-! ### Runs -/

/-- If every failed candle is tried again, a gap is left only by candles that no later response has. -/
private theorem gap_of_retried {n : OHLCVNormaliser} {polls : List Poll}
    (hretried : ∀ before q after, polls = before ++ q :: after → ∀ t ∈ q.closed,
      (run n before).Outstanding q.key t → (run n before).Offers q t)
    {key : String × String} {t : ℚ} (htried : (run n polls).attemptsOn key t ≠ [])
    (hfailed : ∀ a ∈ (run n polls).attemptsOn key t, a.failed = true) :
    ∃ before q after, polls = before ++ q :: after ∧ q.key = key ∧ (run n before).Offers q t ∧
      ∀ p ∈ after, p.key = key → t ∉ p.closed := by
  induction polls using List.reverseRecOn with
  | nil => exact absurd rfl htried
  | append_singleton polls p ih =>
    by_cases hp : p.key = key ∧ (run n polls).Offers p t
    · exact ⟨polls, p, [], rfl, hp.1, hp.2, fun _ h => (List.not_mem_nil h).elim⟩
    · rw [run_append, attemptsOn_poll _ p hp] at htried hfailed
      obtain ⟨before, q, after, rfl, hq, hoffers, hlater⟩ := ih
        (fun before q after he => hretried before q (after ++ [p]) (by rw [he, List.append_assoc]; rfl)) htried hfailed
      refine ⟨before, q, after ++ [p], by rw [List.append_assoc]; rfl, hq, hoffers, fun p' hp' hkey hclosed => ?_⟩
      rcases List.mem_append.1 hp' with hafter | hlast
      · exact hlater p' hafter hkey hclosed
      · -- the last poll has the row, so it would have tried it
        obtain rfl := List.mem_singleton.1 hlast
        have hsome := List.getLast?_eq_some_getLast htried
        subst hkey
        exact hp ⟨rfl, hretried _ p' [] rfl t hclosed ⟨_, hsome, hfailed _ (List.getLast_mem htried)⟩⟩

/-- A run of polls loses no candle to a failure of the bus exactly if every failure is forgotten by the time the row
comes up again. -/
theorem failed_publication_retried_iff (n : OHLCVNormaliser) (polls : List Poll) :
    LosesNothing n polls ↔ FailuresForgotten n polls := by
  constructor
  · intro h before q after he t ht hfailed
    exact (offers_iff_forgotten n before q ht hfailed).1 (h.retried before q after he t ht hfailed)
  · intro h
    have hretried : ∀ before q after, polls = before ++ q :: after → ∀ t ∈ q.closed,
        (run n before).Outstanding q.key t → (run n before).Offers q t := fun before q after he t ht hfailed =>
      (offers_iff_forgotten n before q ht hfailed).2 (h before q after he t ht hfailed)
    exact ⟨hretried, fun key t => gap_of_retried hretried⟩

/-- A poll for the first minute of a market. -/
def firstMinutePoll (processedAt : ℚ) (fails : Bool) : Poll where
  key := ("BTC/USDT", "1m")
  response := minuteCandles 1
  processedAt := processedAt
  fails := fun _ => fails
  response_key := minuteCandles_key 1

/-- A single failure is enough to lose a candle that the next poll still sees. -/
theorem failed_candle_not_retried :
    ¬∀ (n : OHLCVNormaliser) (polls : List Poll), LosesNothing n polls := by
  intro h
  have hclosed : 0 ∈ (firstMinutePoll 120 false).closed := by decide +kernel
  have hfailed : (run (OHLCVNormaliser.run []) [firstMinutePoll 60 true]).Outstanding ("BTC/USDT", "1m") 0 :=
    ⟨⟨minuteCandle 0, true⟩, by decide +kernel, rfl⟩
  have hskipped : ¬(run (OHLCVNormaliser.run []) [firstMinutePoll 60 true]).Offers (firstMinutePoll 120 false) 0 := by
    unfold Offers
    decide +kernel
  exact hskipped ((h (OHLCVNormaliser.run []) [firstMinutePoll 60 true, firstMinutePoll 120 false]).retried
    [firstMinutePoll 60 true] (firstMinutePoll 120 false) [] rfl 0 hclosed hfailed)

end Publisher

end MultiAgentTrading
