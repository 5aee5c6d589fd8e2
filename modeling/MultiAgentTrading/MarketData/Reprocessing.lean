import MultiAgentTrading.Lib.RecentFilter
import MultiAgentTrading.MarketData.Feed

/-!
# A batch that is processed twice

The normaliser is a filter with a memory of 200 timestamps, and a batch can hold more.
`reprocessing_emits_nothing_iff` says when a batch is passed on as a set of new candles and nothing of it is passed on
again: when its new timestamps fit into the memory beside the remembered ones that it repeats.
-/

namespace MultiAgentTrading

namespace OHLCVNormaliser

/-- The normaliser is a filter of timestamps. -/
theorem emit_pass (key : String × String) (n : OHLCVNormaliser) (cs : List OHLCVCandle) :
    (emit key n cs).1.map OHLCVCandle.timestamp =
        (Recent.pass dedupBufferSize (n.seenFor key) (cs.map OHLCVCandle.timestamp)).1 ∧
      (emit key n cs).2.seenFor key =
        (Recent.pass dedupBufferSize (n.seenFor key) (cs.map OHLCVCandle.timestamp)).2 := by
  induction cs generalizing n with
  | nil => exact ⟨rfl, rfl⟩
  | cons c cs ih =>
    rw [List.map_cons, emit]
    by_cases hdup : c.timestamp ∈ n.seenFor key
    · rw [if_pos (show n.isDuplicate key c = true from decide_eq_true hdup), Recent.pass_cons_of_mem hdup]
      exact ih n
    · obtain ⟨hout, hseen⟩ := ih (n.record key c)
      rw [seenFor_record, if_pos rfl] at hout hseen
      have hnot : ¬n.isDuplicate key c = true := fun h => hdup (of_decide_eq_true h)
      rw [if_neg hnot, Recent.pass_cons_of_not_mem hdup]
      exact ⟨congrArg (c.timestamp :: ·) hout, hseen⟩

/-- The timestamps of a batch in the order it is gone through. -/
def ascending (cs : List OHLCVCandle) : List ℚ :=
  (cs.insertionSort fun c c' => c.timestamp ≤ c'.timestamp).map OHLCVCandle.timestamp

theorem sorted_ascending (cs : List OHLCVCandle) : (ascending cs).Pairwise (· ≤ ·) :=
  List.pairwise_map.2 (List.pairwise_insertionSort _ cs)

theorem ascending_perm (cs : List OHLCVCandle) : (ascending cs).Perm (cs.map OHLCVCandle.timestamp) :=
  (List.perm_insertionSort _ cs).map _

theorem processBatch_pass {key : String × String} (n : OHLCVNormaliser) {cs : List OHLCVCandle}
    (hkey : ∀ c ∈ cs, (c.symbol, c.timeframe) = key) :
    (n.processBatch cs).1.map OHLCVCandle.timestamp =
        (Recent.pass dedupBufferSize (n.seenFor key) (ascending cs)).1 ∧
      (n.processBatch cs).2.seenFor key = (Recent.pass dedupBufferSize (n.seenFor key) (ascending cs)).2 := by
  rw [processBatch_eq n hkey]
  exact emit_pass key n _

/-! ### The memory is bounded -/

/-- At most `dedupBufferSize` timestamps are remembered for each symbol and timeframe. -/
def Bounded (n : OHLCVNormaliser) : Prop := ∀ key, (n.seenFor key).length ≤ dedupBufferSize

private theorem Bounded.emit {n : OHLCVNormaliser} (h : n.Bounded) (key : String × String) (cs : List OHLCVCandle) :
    (emit key n cs).2.Bounded := by
  intro key'
  by_cases hkey : key' = key
  · rw [hkey, (emit_pass key n cs).2, Recent.memory_pass (h key) _]
    exact Recent.length_keep_le _ _
  · rw [seenFor_emit_of_ne hkey]
    exact h key'

theorem Bounded.processBatch {n : OHLCVNormaliser} (h : n.Bounded) (cs : List OHLCVCandle) :
    (n.processBatch cs).2.Bounded := by
  cases cs with
  | nil => exact h
  | cons c cs => exact h.emit _ _

theorem Bounded.reset {n : OHLCVNormaliser} (h : n.Bounded) (symbol timeframe : String) :
    (n.reset symbol timeframe).Bounded := by
  intro key
  unfold OHLCVNormaliser.reset seenFor
  rw [Dict.get?_erase]
  split
  case isTrue => exact Nat.zero_le _
  case isFalse => exact h key

end OHLCVNormaliser

/-- A call of the normaliser. -/
inductive NormaliserCall
  | processBatch (candles : List OHLCVCandle)
  | processSingle (candle : OHLCVCandle)
  | reset (symbol timeframe : String)

namespace OHLCVNormaliser

def call (n : OHLCVNormaliser) : NormaliserCall → OHLCVNormaliser
  | .processBatch candles => (n.processBatch candles).2
  | .processSingle candle => (n.processSingle candle).2
  | .reset symbol timeframe => n.reset symbol timeframe

def run (calls : List NormaliserCall) : OHLCVNormaliser := calls.foldl call {}

private theorem bounded_run (calls : List NormaliserCall) : (run calls).Bounded := by
  induction calls using List.reverseRecOn with
  | nil => exact fun _ => Nat.zero_le _
  | append_singleton calls c ih =>
    rw [run, List.foldl_append]
    cases c with
    | processBatch candles => exact Bounded.processBatch ih candles
    | processSingle candle => exact Bounded.processBatch ih [candle]
    | reset symbol timeframe => exact Bounded.reset ih symbol timeframe

/-- What processing a batch is to do: pass on each timestamp of it that is not remembered exactly once, and no other, in
ascending order; and when it is processed again at once, pass on nothing. -/
structure EmitsOnce (n : OHLCVNormaliser) (key : String × String) (cs : List OHLCVCandle) : Prop where
  ascending : (n.processBatch cs).1.Pairwise fun c c' => c.timestamp < c'.timestamp
  once : ∀ c ∈ cs, c.timestamp ∉ n.seenFor key →
    ((n.processBatch cs).1.map OHLCVCandle.timestamp).count c.timestamp = 1
  unseen : ∀ c ∈ (n.processBatch cs).1, c.timestamp ∉ n.seenFor key
  again : ((n.processBatch cs).2.processBatch cs).1 = []

/-- There is room in the memory for the new timestamps of a batch, and the remembered ones that it repeats are not among
the oldest, which they displace. -/
def HasRoom (n : OHLCVNormaliser) (key : String × String) (cs : List OHLCVCandle) : Prop :=
  Recent.Retains dedupBufferSize (n.seenFor key) (cs.map OHLCVCandle.timestamp)

private theorem ascending_processBatch {n : OHLCVNormaliser} {key : String × String} {cs : List OHLCVCandle}
    (hkey : ∀ c ∈ cs, (c.symbol, c.timeframe) = key) :
    (n.processBatch cs).1.Pairwise (fun c c' => c.timestamp < c'.timestamp) ∧
      ∀ c ∈ cs, c.timestamp ∉ n.seenFor key →
        ((n.processBatch cs).1.map OHLCVCandle.timestamp).count c.timestamp = 1 := by
  have hsize : 0 < dedupBufferSize := by decide
  have hpass := (processBatch_pass n hkey).1
  constructor
  · rw [← List.pairwise_map (f := OHLCVCandle.timestamp), hpass]
    exact Recent.pairwise_lt_pass hsize (sorted_ascending cs)
  · intro c hc hnew
    rw [hpass]
    exact Recent.count_pass hsize (sorted_ascending cs) ((ascending_perm cs).mem_iff.2 (List.mem_map_of_mem hc)) hnew

private theorem emitsOnce_iff {n : OHLCVNormaliser} (hn : n.Bounded) {key : String × String} {cs : List OHLCVCandle}
    (hkey : ∀ c ∈ cs, (c.symbol, c.timeframe) = key) : n.EmitsOnce key cs ↔ n.HasRoom key cs := by
  obtain ⟨hout, hseen⟩ := processBatch_pass n hkey
  obtain ⟨hagain, -⟩ := processBatch_pass (n.processBatch cs).2 hkey
  rw [hseen] at hagain
  have htwice := Recent.pass_twice_iff (show 0 < dedupBufferSize by decide) (hn key) (sorted_ascending cs)
  rw [← hout, ← hagain, Recent.retains_perm (ascending_perm cs), List.map_eq_nil_iff] at htwice
  rw [HasRoom, ← htwice]
  obtain ⟨hascending, honce⟩ := ascending_processBatch (n := n) hkey
  constructor
  · intro h
    exact ⟨List.forall_mem_map.2 h.unseen, h.again⟩
  · rintro ⟨hunseen, hnothing⟩
    exact ⟨hascending, honce, fun c hc => hunseen c.timestamp (List.mem_map_of_mem hc), hnothing⟩

end OHLCVNormaliser

/-- When reprocessing a batch of one symbol and timeframe emits nothing, in every state of the normaliser: what it emits
first is always ascending and has each new timestamp once; but it repeats no remembered one and emits nothing the
second time exactly if the memory has room for the batch. -/
theorem reprocessing_emits_nothing_iff (calls : List NormaliserCall) {key : String × String} {cs : List OHLCVCandle}
    (hkey : ∀ c ∈ cs, (c.symbol, c.timeframe) = key) :
    let n := OHLCVNormaliser.run calls
    (n.EmitsOnce key cs ↔ n.HasRoom key cs) ∧
      (n.processBatch cs).1.Pairwise (fun c c' => c.timestamp < c'.timestamp) ∧
      ∀ c ∈ cs, c.timestamp ∉ n.seenFor key →
        ((n.processBatch cs).1.map OHLCVCandle.timestamp).count c.timestamp = 1 :=
  ⟨OHLCVNormaliser.emitsOnce_iff (OHLCVNormaliser.bounded_run calls) hkey,
    OHLCVNormaliser.ascending_processBatch hkey⟩

/-- A candle of a minute. -/
def minuteCandle (minute : ℕ) : OHLCVCandle := flatCandle "BTC/USDT" "1m" (60 * minute) 100 1 unit_volume_nonneg

/-- Candles of successive minutes. -/
def minuteCandles (count : ℕ) : List OHLCVCandle := (List.range count).map minuteCandle

theorem length_minuteCandles (count : ℕ) : (minuteCandles count).length = count := by
  rw [minuteCandles, List.length_map, List.length_range]

theorem minuteCandles_key (count : ℕ) : ∀ c ∈ minuteCandles count, (c.symbol, c.timeframe) = ("BTC/USDT", "1m") := by
  intro c hc
  obtain ⟨k, -, rfl⟩ := List.mem_map.1 hc
  rfl

private theorem nodup_minuteCandles (count : ℕ) : ((minuteCandles count).map OHLCVCandle.timestamp).Nodup := by
  rw [minuteCandles, List.map_map]
  refine List.nodup_range.map fun j k hjk => ?_
  have hmul : (60 : ℚ) * j = 60 * k := hjk
  exact Nat.cast_injective (mul_left_cancel₀ (by norm_num) hmul)

private theorem hasRoom_minuteCandles_iff (count : ℕ) :
    (OHLCVNormaliser.run []).HasRoom ("BTC/USDT", "1m") (minuteCandles count) ↔ count ≤ dedupBufferSize := by
  have hfresh : (Recent.fresh [] ((minuteCandles count).map OHLCVCandle.timestamp)).length = count := by
    simp [Recent.fresh, (nodup_minuteCandles count).dedup, length_minuteCandles]
  rw [OHLCVNormaliser.HasRoom, Recent.Retains]
  show (Recent.fresh [] _).length ≤ _ ∧ (∀ x ∈ _, x ∈ ([] : List ℚ) → _) ↔ _
  rw [hfresh]
  exact ⟨fun h => h.1, fun h => ⟨h, fun x _ hx => (List.not_mem_nil hx).elim⟩⟩

/-- A batch of as many candles as the memory holds is emitted once. -/
theorem reprocessing_emits_nothing_twoHundred :
    (∀ c ∈ minuteCandles 200, (c.symbol, c.timeframe) = ("BTC/USDT", "1m")) ∧
      (OHLCVNormaliser.run []).EmitsOnce ("BTC/USDT", "1m") (minuteCandles 200) :=
  ⟨minuteCandles_key 200,
    (reprocessing_emits_nothing_iff [] (minuteCandles_key 200)).1.2 ((hasRoom_minuteCandles_iff 200).2 le_rfl)⟩

/-- One candle more, and the fresh normaliser emits candles of the batch again. -/
theorem reprocessing_emits_again :
    (minuteCandles 201).length ≤ defaultSettings.marketData.ohlcvHistoryLimit ∧
      (∀ c ∈ minuteCandles 201, (c.symbol, c.timeframe) = ("BTC/USDT", "1m")) ∧
      (((OHLCVNormaliser.run []).processBatch (minuteCandles 201)).2.processBatch (minuteCandles 201)).1 ≠ [] := by
  have hbounded := OHLCVNormaliser.bounded_run []
  have hroom := mt (hasRoom_minuteCandles_iff 201).1 (by decide)
  have hlimit : (minuteCandles 201).length ≤ defaultSettings.marketData.ohlcvHistoryLimit := by
    rw [length_minuteCandles]
    decide
  refine ⟨hlimit, minuteCandles_key 201, fun hagain => ?_⟩
  refine hroom ((OHLCVNormaliser.emitsOnce_iff hbounded (minuteCandles_key 201)).1 ?_)
  obtain ⟨hascending, honce⟩ := OHLCVNormaliser.ascending_processBatch (n := .run []) (minuteCandles_key 201)
  exact ⟨hascending, honce, fun c _ hc => (List.not_mem_nil hc).elim, hagain⟩

end MultiAgentTrading
