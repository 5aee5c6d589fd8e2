import Mathlib.Algebra.Order.Floor.Ring
import Mathlib.Data.Rat.Floor
import Mathlib.Tactic.Linarith
import MultiAgentTrading.Lib.Recent
import MultiAgentTrading.MarketData.Agent

/-!
# The candle feed

An exchange has a growing history of rows for each symbol and timeframe; what a row contains depends on when it is
read.  A run of the feed is a list of fetches, of any symbols and timeframes in any order, each published through
`closedCandles` and the normaliser.  `Sourced` is what every run keeps: what is published was kept by `closedCandles`
in some fetch, and every row that was kept in some fetch has been published.
-/

namespace MultiAgentTrading

/-- The rows of one symbol and timeframe: row `k` begins `k` periods after the origin, and its values depend on the
time it is read at.  A known timeframe has the period that the table gives it. -/
structure CandleHistory (key : String × String) where
  origin : ℚ
  period : ℚ
  row : ℕ → ℚ → OHLCVCandle
  period_pos : 0 < period
  period_eq : ∀ seconds, timeframeSecondsTable.get? key.2 = some seconds → period = seconds
  row_key : ∀ k t, ((row k t).symbol, (row k t).timeframe) = key
  row_timestamp : ∀ k t, (row k t).timestamp = origin + k * period

namespace CandleHistory

variable {key : String × String} (h : CandleHistory key)

def openTime (k : ℕ) : ℚ := h.origin + k * h.period

/-- When the period of a row ends. -/
def closeTime (k : ℕ) : ℚ := h.openTime k + h.period

/-- The number of rows whose period has begun. -/
def begun (t : ℚ) : ℕ := (⌊(t - h.origin) / h.period⌋ + 1).toNat

/-- The newest rows at a time, as `fetch_ohlcv` asks for them. -/
def newest (limit : ℕ) (t : ℚ) : List ℕ := Recent.keep limit (List.range (h.begun t))

end CandleHistory

/-- A history for each symbol and timeframe. -/
abbrev Exchange := ∀ key : String × String, CandleHistory key

theorem timeframeSeconds_pos (timeframe : String) : 0 < timeframeSeconds timeframe := by
  have htable : ∀ p ∈ timeframeSecondsTable.entries, 0 < p.2 := by decide
  unfold timeframeSeconds
  cases h : timeframeSecondsTable.get? timeframe with
  | none => decide
  | some seconds => exact htable (timeframe, seconds) (Dict.mem_entries.2 h)

theorem timeframeSeconds_eq {timeframe : String} {seconds : ℕ}
    (h : timeframeSecondsTable.get? timeframe = some seconds) : timeframeSeconds timeframe = seconds := by
  rw [timeframeSeconds, h, Option.getD_some]

/-- An exchange that trades at 100 from time 0 on, one unit a second; a row has the volume traded so far. -/
def steadyExchange : Exchange := fun key =>
  { origin := 0
    period := timeframeSeconds key.2
    row := fun k t => flatCandle key.1 key.2 (0 + k * timeframeSeconds key.2) 100
      (max 0 (min (t - k * timeframeSeconds key.2) (timeframeSeconds key.2))) (le_max_left _ _)
    period_pos := Nat.cast_pos.2 (timeframeSeconds_pos key.2)
    period_eq := fun _ h => congrArg Nat.cast (timeframeSeconds_eq h)
    row_key := fun _ _ => rfl
    row_timestamp := fun _ _ => rfl }

/-- A response: the rows it has, when the exchange read them, and when they are processed. -/
structure Fetch where
  key : String × String
  rows : List ℕ
  responseTime : ℚ
  processedAt : ℚ
  deriving DecidableEq

def Fetch.candles (x : Exchange) (f : Fetch) : List OHLCVCandle := f.rows.map fun k => (x f.key).row k f.responseTime

/-- The timestamps that the normaliser remembers for a symbol and timeframe. -/
def OHLCVNormaliser.seenFor (n : OHLCVNormaliser) (key : String × String) : List ℚ := (n.seen.get? key).getD []

/-- A published candle, with the fetch it came from. -/
structure Publication where
  candle : OHLCVCandle
  fetch : Fetch
  deriving DecidableEq

/-- The normaliser and all that has been published. -/
structure Feed where
  normaliser : OHLCVNormaliser := {}
  published : List Publication := []

namespace Feed

def process (x : Exchange) (s : Feed) (f : Fetch) : Feed :=
  let out := MarketDataAgent.publishClosed s.normaliser (f.candles x) f.processedAt
  { normaliser := out.2, published := s.published ++ out.1.map fun c => ⟨c, f⟩ }

def run (x : Exchange) (fetches : List Fetch) : Feed := fetches.foldl (process x) {}

/-- What has been published for a symbol and timeframe. -/
def publishedFor (s : Feed) (key : String × String) : List Publication :=
  s.published.filter fun p => p.fetch.key = key

def seen (s : Feed) (key : String × String) : List ℚ := s.normaliser.seenFor key

end Feed

/-! ### What a batch leaves of the memory -/

namespace OHLCVNormaliser

theorem seenFor_record (n : OHLCVNormaliser) (key key' : String × String) (c : OHLCVCandle) :
    (n.record key c).seenFor key' =
      if key' = key then Recent.keep dedupBufferSize (n.seenFor key ++ [c.timestamp]) else n.seenFor key' := by
  unfold seenFor record
  rw [Dict.get?_set]
  split
  case isTrue => rw [Recent.keep, Option.getD_some]
  case isFalse => rfl

/-- A batch leaves the memories of the other symbols and timeframes alone. -/
theorem seenFor_emit_of_ne {key key' : String × String} (hne : key' ≠ key) (n : OHLCVNormaliser)
    (cs : List OHLCVCandle) : (emit key n cs).2.seenFor key' = n.seenFor key' := by
  induction cs generalizing n with
  | nil => rfl
  | cons c cs ih =>
    unfold emit
    split
    · exact ih n
    · rw [ih, seenFor_record, if_neg hne]

/-- Every timestamp of a batch was remembered or is passed on, and the memory has only such timestamps. -/
theorem mem_emit (key : String × String) (n : OHLCVNormaliser) (cs : List OHLCVCandle) :
    (∀ c ∈ cs, c.timestamp ∈ n.seenFor key ∨ ∃ c' ∈ (emit key n cs).1, c'.timestamp = c.timestamp) ∧
      ∀ t ∈ (emit key n cs).2.seenFor key, t ∈ n.seenFor key ∨ ∃ c' ∈ (emit key n cs).1, c'.timestamp = t := by
  induction cs generalizing n with
  | nil => exact ⟨fun c hc => (List.not_mem_nil hc).elim, fun t ht => .inl ht⟩
  | cons c cs ih =>
    unfold emit
    split
    case isTrue hdup =>
      have hc : c.timestamp ∈ n.seenFor key := of_decide_eq_true hdup
      obtain ⟨hall, hseen⟩ := ih n
      refine ⟨fun c' hc' => ?_, hseen⟩
      rcases List.mem_cons.1 hc' with rfl | hrest
      · exact .inl hc
      · exact hall c' hrest
    case isFalse =>
      obtain ⟨hall, hseen⟩ := ih (n.record key c)
      -- what is remembered after recording `c` was remembered before, or is `c`
      have hrecord : ∀ t ∈ (n.record key c).seenFor key, t ∈ n.seenFor key ∨ c.timestamp = t := by
        intro t ht
        rw [seenFor_record, if_pos rfl] at ht
        rcases List.mem_append.1 (Recent.keep_subset _ _ ht) with hold | hnew
        · exact .inl hold
        · exact .inr (List.mem_singleton.1 hnew).symm
      have hlift : ∀ t, t ∈ (n.record key c).seenFor key ∨ (∃ c' ∈ (emit key (n.record key c) cs).1, c'.timestamp = t) →
          t ∈ n.seenFor key ∨ ∃ c' ∈ c :: (emit key (n.record key c) cs).1, c'.timestamp = t := by
        rintro t (ht | ⟨c', hc', rfl⟩)
        · exact (hrecord t ht).imp_right fun he => ⟨c, List.mem_cons_self, he⟩
        · exact .inr ⟨c', List.mem_cons_of_mem _ hc', rfl⟩
      refine ⟨fun c' hc' => ?_, fun t ht => hlift t (hseen t ht)⟩
      rcases List.mem_cons.1 hc' with rfl | hrest
      · exact .inr ⟨c', List.mem_cons_self, rfl⟩
      · exact hlift _ (hall c' hrest)

/-- A batch of one symbol and timeframe. -/
theorem processBatch_eq {key : String × String} (n : OHLCVNormaliser) {cs : List OHLCVCandle}
    (hkey : ∀ c ∈ cs, (c.symbol, c.timeframe) = key) :
    n.processBatch cs = emit key n (cs.insertionSort fun c c' => c.timestamp ≤ c'.timestamp) := by
  cases cs with
  | nil => rfl
  | cons c cs => rw [← hkey c List.mem_cons_self]; rfl

end OHLCVNormaliser

/-! ### The rows of a history -/

namespace CandleHistory

variable {key : String × String} (h : CandleHistory key)

theorem period_known (hknown : (timeframeSecondsTable.get? key.2).isSome = true) :
    h.period = timeframeSeconds key.2 := by
  obtain ⟨seconds, hs⟩ := Option.isSome_iff_exists.1 hknown
  rw [h.period_eq seconds hs, timeframeSeconds_eq hs]

theorem openTime_strictMono : StrictMono h.openTime := by
  intro k k' hlt
  have hcast : (k : ℚ) < k' := by exact_mod_cast hlt
  have := mul_lt_mul_of_pos_right hcast h.period_pos
  unfold openTime
  linarith

end CandleHistory

namespace Fetch

variable {x : Exchange} {f : Fetch}

/-- Whether `closedCandles` keeps a row of the response: it has closed by the time it is processed, or its timeframe is
unknown. -/
def Keeps (x : Exchange) (f : Fetch) (k : ℕ) : Prop :=
  timeframeSecondsTable.get? f.key.2 = none ∨ (x f.key).closeTime k ≤ f.processedAt

instance (x : Exchange) (f : Fetch) : DecidablePred (f.Keeps x) := fun _ => inferInstanceAs (Decidable (_ ∨ _))

theorem keeps_iff (hknown : (timeframeSecondsTable.get? f.key.2).isSome = true) {k : ℕ} :
    f.Keeps x k ↔ (x f.key).closeTime k ≤ f.processedAt := by
  rw [Keeps, or_iff_right]
  exact Option.isSome_iff_ne_none.1 hknown

def keptRows (x : Exchange) (f : Fetch) : List ℕ := f.rows.filter fun k => f.Keeps x k

theorem mem_keptRows {k : ℕ} : k ∈ f.keptRows x ↔ k ∈ f.rows ∧ f.Keeps x k := by
  simp [keptRows]

theorem closedCandles_candles :
    closedCandles (f.candles x) f.processedAt = (f.keptRows x).map fun k => (x f.key).row k f.responseTime := by
  unfold closedCandles candles keptRows
  rw [List.filter_map]
  congr 1
  refine List.filter_congr fun k _ => ?_
  have hframe : ((x f.key).row k f.responseTime).timeframe = f.key.2 :=
    congrArg Prod.snd ((x f.key).row_key k f.responseTime)
  cases hseconds : timeframeSecondsTable.get? f.key.2 with
  | none => simp [hframe, hseconds, Keeps]
  | some seconds =>
    simp [hframe, hseconds, Keeps, (x f.key).row_timestamp, CandleHistory.closeTime, CandleHistory.openTime,
      (x f.key).period_eq seconds hseconds]

/-- What a fetch passes to the normaliser. -/
def batch (x : Exchange) (f : Fetch) : List OHLCVCandle :=
  (closedCandles (f.candles x) f.processedAt).insertionSort fun c c' => c.timestamp ≤ c'.timestamp

theorem publishClosed_eq (n : OHLCVNormaliser) :
    MarketDataAgent.publishClosed n (f.candles x) f.processedAt = OHLCVNormaliser.emit f.key n (f.batch x) := by
  refine n.processBatch_eq fun c hc => ?_
  obtain ⟨k, -, rfl⟩ := List.mem_map.1 (List.mem_of_mem_filter hc)
  exact (x f.key).row_key k f.responseTime

theorem mem_batch {c : OHLCVCandle} :
    c ∈ f.batch x ↔ ∃ k ∈ f.keptRows x, (x f.key).row k f.responseTime = c := by
  rw [batch, List.mem_insertionSort, closedCandles_candles, List.mem_map]

end Fetch

namespace Feed

variable {x : Exchange}

theorem run_concat (x : Exchange) (fetches : List Fetch) (f : Fetch) :
    run x (fetches ++ [f]) = (run x fetches).process x f := by
  rw [run, List.foldl_append]
  rfl

theorem seen_process (s : Feed) (f : Fetch) (key : String × String) :
    (s.process x f).seen key = (OHLCVNormaliser.emit f.key s.normaliser (f.batch x)).2.seenFor key := by
  rw [← Fetch.publishClosed_eq]
  rfl

private theorem published_process (s : Feed) (f : Fetch) :
    (s.process x f).published =
      s.published ++ (OHLCVNormaliser.emit f.key s.normaliser (f.batch x)).1.map fun c => ⟨c, f⟩ := by
  rw [← Fetch.publishClosed_eq]
  rfl

/-- Fetches of other symbols and timeframes publish nothing here and leave the memory alone. -/
theorem process_of_ne {key : String × String} (s : Feed) {f : Fetch} (hne : f.key ≠ key) :
    (s.process x f).seen key = s.seen key ∧ (s.process x f).publishedFor key = s.publishedFor key := by
  constructor
  · rw [seen_process]
    exact OHLCVNormaliser.seenFor_emit_of_ne (Ne.symm hne) _ _
  · have hnone : ((OHLCVNormaliser.emit f.key s.normaliser (f.batch x)).1.map fun c => Publication.mk c f).filter
        (fun p => p.fetch.key = key) = [] := by
      rw [List.filter_eq_nil_iff]
      intro p hp
      obtain ⟨c, -, rfl⟩ := List.mem_map.1 hp
      simpa using hne
    rw [publishedFor, published_process, List.filter_append, hnone, List.append_nil]
    rfl

theorem publishedFor_process (s : Feed) (f : Fetch) :
    (s.process x f).publishedFor f.key = s.publishedFor f.key ++
      (OHLCVNormaliser.emit f.key s.normaliser (f.batch x)).1.map fun c => ⟨c, f⟩ := by
  rw [publishedFor, published_process, List.filter_append]
  congr 1
  rw [List.filter_eq_self]
  intro p hp
  obtain ⟨c, -, rfl⟩ := List.mem_map.1 hp
  simp

/-- What has been published stays published. -/
theorem publishedFor_subset_run (x : Exchange) (key : String × String) (fetches later : List Fetch) :
    (run x fetches).publishedFor key ⊆ (run x (fetches ++ later)).publishedFor key := by
  induction later using List.reverseRecOn with
  | nil => rw [List.append_nil]; exact List.Subset.refl _
  | append_singleton later f ih =>
    intro p hp
    rw [← List.append_assoc, run_concat, publishedFor, published_process, List.filter_append]
    exact List.mem_append_left _ (ih hp)

/-- What a run of fetches has published: rows that were kept, as they were read, among them every row that some fetch
had kept; and the memory has no other timestamps. -/
structure Sourced (x : Exchange) (key : String × String) (fetches : List Fetch) (s : Feed) : Prop where
  origin : ∀ p ∈ s.publishedFor key, p.fetch ∈ fetches ∧ p.fetch.key = key ∧
    ∃ k ∈ p.fetch.keptRows x, p.candle = (x p.fetch.key).row k p.fetch.responseTime
  seen : ∀ t ∈ s.seen key, ∃ p ∈ s.publishedFor key, p.candle.timestamp = t
  kept : ∀ f ∈ fetches, f.key = key → ∀ k ∈ f.keptRows x,
    ∃ p ∈ s.publishedFor key, p.candle.timestamp = (x key).openTime k

private theorem Sourced.process {key : String × String} {fetches : List Fetch} {s : Feed}
    (h : Sourced x key fetches s) (f : Fetch) :
    Sourced x key (fetches ++ [f]) (s.process x f) := by
  by_cases hkey : f.key = key
  · subst hkey
    have hemit := OHLCVNormaliser.mem_emit f.key s.normaliser (f.batch x)
    have hold : ∀ p ∈ s.publishedFor f.key, p ∈ (s.process x f).publishedFor f.key := fun p hp => by
      rw [publishedFor_process]
      exact List.mem_append_left _ hp
    -- a timestamp that was remembered or is passed on has been published
    have hpublished : ∀ t, (t ∈ s.seen f.key ∨
        ∃ c ∈ (OHLCVNormaliser.emit f.key s.normaliser (f.batch x)).1, c.timestamp = t) →
          ∃ p ∈ (s.process x f).publishedFor f.key, p.candle.timestamp = t := by
      rintro t (hseen | ⟨c, hc, rfl⟩)
      · obtain ⟨p, hp, ht⟩ := h.seen t hseen
        exact ⟨p, hold p hp, ht⟩
      · refine ⟨⟨c, f⟩, ?_, rfl⟩
        rw [publishedFor_process]
        exact List.mem_append_right _ (List.mem_map_of_mem hc)
    refine ⟨?_, ?_, ?_⟩
    · intro p hp
      rw [publishedFor_process] at hp
      rcases List.mem_append.1 hp with hp | hp
      · exact (h.origin p hp).imp_left (List.mem_append_left _)
      · obtain ⟨c, hc, rfl⟩ := List.mem_map.1 hp
        obtain ⟨k, hk, hrow⟩ := Fetch.mem_batch.1 ((OHLCVNormaliser.emit_sublist _ _ _).subset hc)
        exact ⟨List.mem_append_right _ (List.mem_singleton_self f), rfl, k, hk, hrow.symm⟩
    · intro t ht
      rw [seen_process] at ht
      exact hpublished t (hemit.2 t ht)
    · intro f' hf' hkey k hk
      rcases List.mem_append.1 hf' with hf' | hlast
      · obtain ⟨p, hp, ht⟩ := h.kept f' hf' hkey k hk
        exact ⟨p, hold p hp, ht⟩
      · rw [List.mem_singleton.1 hlast] at hk
        have hbatch := Fetch.mem_batch.2 ⟨k, hk, rfl⟩
        have htime : ((x f.key).row k f.responseTime).timestamp = (x f.key).openTime k :=
          (x f.key).row_timestamp k f.responseTime
        exact hpublished _ (htime ▸ hemit.1 _ hbatch)
  · obtain ⟨hseen, hpublished⟩ := s.process_of_ne (x := x) hkey
    refine ⟨?_, ?_, ?_⟩
    · intro p hp
      rw [hpublished] at hp
      exact (h.origin p hp).imp_left (List.mem_append_left _)
    · rw [hseen, hpublished]
      exact h.seen
    · intro f' hf' hkey' k hk
      rw [hpublished]
      rcases List.mem_append.1 hf' with hf' | hlast
      · exact h.kept f' hf' hkey' k hk
      · rw [List.mem_singleton.1 hlast] at hkey'
        exact absurd hkey' hkey

theorem sourced_run (x : Exchange) (key : String × String) (fetches : List Fetch) :
    Sourced x key fetches (run x fetches) := by
  induction fetches using List.reverseRecOn with
  | nil => exact ⟨fun p hp => (List.not_mem_nil hp).elim, fun t ht => (List.not_mem_nil ht).elim,
      fun f hf => (List.not_mem_nil hf).elim⟩
  | append_singleton fetches f ih =>
    rw [run_concat]
    exact ih.process f

end Feed

end MultiAgentTrading
