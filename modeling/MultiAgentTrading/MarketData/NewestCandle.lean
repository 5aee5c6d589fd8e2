import Mathlib.Data.List.Count
import MultiAgentTrading.Lib.Runs
import MultiAgentTrading.MarketData.Reprocessing

/-!
# The last candle of a feed

The normaliser keeps the candle it emitted last, for the age of the feed and for the gap statistics, and it emits every
candle whose timestamp it does not remember, also one that is older than the last.  `newest_candle_is_last` says that
over every run of calls in which no such late candle comes the last candle is the newest one and only real gaps are
counted.
-/

namespace MultiAgentTrading

open Runs

structure NormaliserStats where
  received : ℕ := 0
  duplicates : ℕ := 0
  gaps : ℕ := 0
  published : ℕ := 0
  deriving DecidableEq

def NormaliserStats.zero : NormaliserStats := ⟨0, 0, 0, 0⟩

/-- A candle that was emitted, and whether the gap counter was incremented for it. -/
structure Emission where
  key : String × String
  candle : OHLCVCandle
  gap : Bool

/-- The normaliser with its statistics, and all that it has emitted. -/
structure NormaliserHistory where
  normaliser : OHLCVNormaliser := {}
  stats : Dict (String × String) NormaliserStats := .empty
  emitted : List Emission := []

/-- `_check_gap`: a candle comes more than one and a half timeframes after another. -/
def IsGap (timeframe : String) (last candle : OHLCVCandle) : Prop :=
  (timeframeSeconds timeframe : ℚ) * (3 / 2) < candle.timestamp - last.timestamp

instance (timeframe : String) (last candle : OHLCVCandle) : Decidable (IsGap timeframe last candle) :=
  inferInstanceAs (Decidable (_ < _))

/-- Whether a gap is found before a candle; without a last candle none is looked for. -/
def OHLCVNormaliser.gapBefore (n : OHLCVNormaliser) (key : String × String) (candle : OHLCVCandle) : Bool :=
  match n.last.get? key with
  | none => false
  | some last => IsGap key.2 last candle

namespace NormaliserHistory

def init : NormaliserHistory := {}

def statsFor (h : NormaliserHistory) (key : String × String) : NormaliserStats := (h.stats.get? key).getD .zero

def emittedFor (h : NormaliserHistory) (key : String × String) : List Emission := h.emitted.filter fun e => e.key = key

/-- The body of the loop of `process_batch`. -/
def take (key : String × String) (h : NormaliserHistory) (candle : OHLCVCandle) : NormaliserHistory :=
  let stats := h.statsFor key
  if h.normaliser.isDuplicate key candle then
    { h with stats := h.stats.set key { stats with duplicates := stats.duplicates + 1 } }
  else
    let gap := h.normaliser.gapBefore key candle
    let checked := if gap then { stats with gaps := stats.gaps + 1 } else stats
    -- the candle becomes the last one whatever its timestamp is
    { normaliser := h.normaliser.record key candle
      stats := h.stats.set key { checked with published := checked.published + 1 }
      emitted := h.emitted ++ [⟨key, candle, gap⟩] }

def receive (key : String × String) (count : ℕ) (h : NormaliserHistory) : NormaliserHistory :=
  let stats := h.statsFor key
  { h with stats := h.stats.set key { stats with received := stats.received + count } }

/-- `process_batch`, with its statistics. -/
def processBatch (h : NormaliserHistory) (candles : List OHLCVCandle) : NormaliserHistory :=
  match candles with
  | [] => h
  | first :: _ =>
    let key := (first.symbol, first.timeframe)
    (candles.insertionSort fun c c' => c.timestamp ≤ c'.timestamp).foldl (take key) (h.receive key candles.length)

def reset (h : NormaliserHistory) (symbol timeframe : String) : NormaliserHistory where
  normaliser := h.normaliser.reset symbol timeframe
  stats := h.stats.erase (symbol, timeframe)
  emitted := h.emitted.filter fun e => e.key ≠ (symbol, timeframe)

def step (h : NormaliserHistory) : NormaliserCall → Option NormaliserHistory
  | .processBatch candles => some (h.processBatch candles)
  | .processSingle candle => some (h.processBatch [candle])
  | .reset symbol timeframe => some (h.reset symbol timeframe)

/-! ### The history follows the normaliser -/

private theorem foldl_take (key : String × String) (h : NormaliserHistory) (cs : List OHLCVCandle) :
    (cs.foldl (take key) h).normaliser = (OHLCVNormaliser.emit key h.normaliser cs).2 ∧
      (cs.foldl (take key) h).emitted.map Emission.candle =
        h.emitted.map Emission.candle ++ (OHLCVNormaliser.emit key h.normaliser cs).1 := by
  induction cs generalizing h with
  | nil => exact ⟨rfl, (List.append_nil _).symm⟩
  | cons c cs ih =>
    obtain ⟨hnormaliser, hemitted⟩ := ih (take key h c)
    rw [List.foldl_cons, hnormaliser, hemitted, OHLCVNormaliser.emit]
    by_cases hdup : h.normaliser.isDuplicate key c = true
    · simp only [take, if_pos hdup, and_self]
    · simp [take, if_neg hdup]

/-- A batch changes the normaliser and emits as `process_batch` does. -/
theorem processBatch_eq (h : NormaliserHistory) (cs : List OHLCVCandle) :
    (h.processBatch cs).normaliser = (h.normaliser.processBatch cs).2 ∧
      (h.processBatch cs).emitted.map Emission.candle =
        h.emitted.map Emission.candle ++ (h.normaliser.processBatch cs).1 := by
  cases cs with
  | nil => exact ⟨rfl, (List.append_nil _).symm⟩
  | cons c cs => exact foldl_take _ (h.receive _ _) _

theorem normaliser_step {h h' : NormaliserHistory} {call : NormaliserCall} (hstep : h.step call = some h') :
    h'.normaliser = h.normaliser.call call := by
  cases call with
  | processBatch candles => cases hstep; exact (h.processBatch_eq candles).1
  | processSingle candle => cases hstep; exact (h.processBatch_eq [candle]).1
  | reset symbol timeframe => cases hstep; rfl

end NormaliserHistory

/-! ### Candles that are not late -/

/-- A candle is remembered or newer than the last one. -/
def OHLCVNormaliser.Timely (n : OHLCVNormaliser) (key : String × String) (candle : OHLCVCandle) : Prop :=
  candle.timestamp ∈ n.seenFor key ∨ ∀ last ∈ n.last.get? key, last.timestamp < candle.timestamp

instance (n : OHLCVNormaliser) (key : String × String) (candle : OHLCVCandle) : Decidable (n.Timely key candle) :=
  inferInstanceAs (Decidable (_ ∨ _))

namespace NormaliserHistory

/-- Every candle of a batch is remembered or newer than the last one of its symbol and timeframe. -/
def TimelyBatch (h : NormaliserHistory) (candles : List OHLCVCandle) : Prop :=
  ∀ first ∈ candles.head?, ∀ c ∈ candles, h.normaliser.Timely (first.symbol, first.timeframe) c

/-- No call has a late candle. -/
def NoneLate (h : NormaliserHistory) : NormaliserCall → Prop
  | .processBatch candles => h.TimelyBatch candles
  | .processSingle candle => h.TimelyBatch [candle]
  | .reset _ _ => True

/-- What a run without late candles keeps for a symbol and timeframe: what it has emitted is ascending, each counted gap
is one to everything before it, and the last candle is the last one emitted. -/
structure Newest (h : NormaliserHistory) (key : String × String) : Prop where
  ascending : (h.emittedFor key).Pairwise fun e e' =>
    e.candle.timestamp < e'.candle.timestamp ∧ (e'.gap = true → IsGap key.2 e.candle e'.candle)
  last : h.normaliser.last.get? key = (h.emittedFor key).getLast?.map Emission.candle
  counted : (h.statsFor key).gaps = (h.emittedFor key).countP Emission.gap

@[simp] theorem statsFor_set (h : NormaliserHistory) (key key' : String × String) (stats : NormaliserStats) :
    ({ h with stats := h.stats.set key stats } : NormaliserHistory).statsFor key' =
      if key' = key then stats else h.statsFor key' := by
  unfold statsFor
  rw [Dict.get?_set]
  split <;> rfl

theorem newest_receive {h : NormaliserHistory} {key : String × String} (hnew : h.Newest key) (key' : String × String)
    (count : ℕ) : (h.receive key' count).Newest key where
  ascending := hnew.ascending
  last := hnew.last
  counted := by
    rw [receive, statsFor_set]
    split
    case isTrue he => subst he; exact hnew.counted
    case isFalse => exact hnew.counted

private theorem filter_emitted (h : NormaliserHistory) (e : Emission) (key : String × String) :
    (h.emitted ++ [e]).filter (fun e => e.key = key) =
      if e.key = key then h.emittedFor key ++ [e] else h.emittedFor key := by
  rw [List.filter_append]
  split
  case isTrue he => simp [he, emittedFor]
  case isFalse he => simp [he, emittedFor]

/-- A duplicate is only counted. -/
private theorem newest_take_duplicate {h : NormaliserHistory} {key key' : String × String} {c : OHLCVCandle}
    (hnew : h.Newest key) (hdup : h.normaliser.isDuplicate key' c = true) : (h.take key' c).Newest key := by
  unfold take
  rw [if_pos hdup]
  refine ⟨hnew.ascending, hnew.last, ?_⟩
  rw [statsFor_set]
  split
  case isTrue he => subst he; exact hnew.counted
  case isFalse => exact hnew.counted

/-- A candle of another symbol and timeframe changes nothing here. -/
private theorem newest_take_of_ne {h : NormaliserHistory} {key key' : String × String} (hnew : h.Newest key)
    (hne : key ≠ key') (c : OHLCVCandle) : (h.take key' c).Newest key := by
  by_cases hdup : h.normaliser.isDuplicate key' c = true
  · exact newest_take_duplicate hnew hdup
  · have hsame : (h.take key' c).emittedFor key = h.emittedFor key := by
      unfold take
      rw [if_neg hdup]
      exact (filter_emitted h _ key).trans (if_neg (Ne.symm hne))
    have hlast : (h.take key' c).normaliser.last.get? key = h.normaliser.last.get? key := by
      unfold take
      rw [if_neg hdup]
      exact Dict.get?_set_of_ne hne _ _
    have hstats : (h.take key' c).statsFor key = h.statsFor key := by
      unfold take
      rw [if_neg hdup]
      unfold statsFor
      rw [Dict.get?_set_of_ne hne]
    refine ⟨?_, ?_, ?_⟩
    · rw [hsame]; exact hnew.ascending
    · rw [hsame, hlast]; exact hnew.last
    · rw [hsame, hstats]; exact hnew.counted

/-- There is a last candle once something is emitted, and everything else that was emitted is older. -/
private theorem Newest.eq_or_lt_last {h : NormaliserHistory} {key : String × String} (hnew : h.Newest key)
    {e : Emission} (he : e ∈ h.emittedFor key) :
    ∃ last ∈ h.emittedFor key, h.normaliser.last.get? key = some last.candle ∧
      (e = last ∨ e.candle.timestamp < last.candle.timestamp) := by
  have hascending := hnew.ascending
  have hlast := hnew.last
  rcases List.eq_nil_or_concat' (h.emittedFor key) with hnil | ⟨before, last, hsplit⟩
  · rw [hnil] at he
    cases he
  · rw [hsplit] at he hascending hlast ⊢
    refine ⟨last, List.mem_append_right _ (List.mem_singleton_self last), ?_, ?_⟩
    · rw [hlast, List.getLast?_concat]
      rfl
    · rcases List.mem_append.1 he with hbefore | hself
      · exact .inr ((List.pairwise_append.1 hascending).2.2 e hbefore last (List.mem_singleton_self last)).1
      · exact .inl (List.mem_singleton.1 hself)

private theorem Newest.le_last {h : NormaliserHistory} {key : String × String} (hnew : h.Newest key) {e : Emission}
    (he : e ∈ h.emittedFor key) :
    ∃ last, h.normaliser.last.get? key = some last ∧ e.candle.timestamp ≤ last.timestamp := by
  obtain ⟨last, -, hlast, hle⟩ := hnew.eq_or_lt_last he
  refine ⟨last.candle, hlast, ?_⟩
  rcases hle with rfl | hlt
  · exact le_rfl
  · exact hlt.le

/-- A candle that is not late is emitted as the newest, and a gap before it is one to all that was emitted. -/
private theorem newest_take {h : NormaliserHistory} {key : String × String} {c : OHLCVCandle} (hnew : h.Newest key)
    (htimely : h.normaliser.Timely key c) : (h.take key c).Newest key := by
  by_cases hdup : h.normaliser.isDuplicate key c = true
  · exact newest_take_duplicate hnew hdup
  · have hnewer := htimely.resolve_left fun hmem => hdup (decide_eq_true hmem)
    have hemitted : (h.take key c).emittedFor key =
        h.emittedFor key ++ [⟨key, c, h.normaliser.gapBefore key c⟩] := by
      unfold take
      rw [if_neg hdup]
      exact (filter_emitted h _ key).trans (if_pos rfl)
    refine ⟨?_, ?_, ?_⟩
    · -- the gap was measured to the last candle, which everything else emitted is older than
      rw [hemitted]
      refine List.pairwise_append.2 ⟨hnew.ascending, List.pairwise_singleton _ _, ?_⟩
      intro e he e' he'
      rw [List.mem_singleton.1 he']
      obtain ⟨last, hlast, hle⟩ := hnew.le_last he
      refine ⟨hle.trans_lt (hnewer last hlast), fun hgap => ?_⟩
      have hreal : IsGap key.2 last c := by
        rw [OHLCVNormaliser.gapBefore, hlast] at hgap
        exact of_decide_eq_true hgap
      exact hreal.trans_le (sub_le_sub_left hle c.timestamp)
    · rw [hemitted, List.getLast?_concat]
      unfold take
      rw [if_neg hdup]
      exact Dict.get?_set_self _ _ _
    · rw [hemitted, List.countP_append, ← hnew.counted]
      unfold take
      rw [if_neg hdup]
      unfold statsFor
      rw [Dict.get?_set_self]
      cases h.normaliser.gapBefore key c with
      | true => rfl
      | false => rfl

/-- A candle leaves those of the batch that come after it timely. -/
private theorem timely_take {h : NormaliserHistory} {key : String × String} {c c' : OHLCVCandle}
    (hle : c.timestamp ≤ c'.timestamp) (htimely : h.normaliser.Timely key c') :
    (h.take key c).normaliser.Timely key c' := by
  by_cases hdup : h.normaliser.isDuplicate key c = true
  · unfold take
    rw [if_pos hdup]
    exact htimely
  · unfold take
    rw [if_neg hdup]
    show (h.normaliser.record key c).Timely key c'
    rcases eq_or_lt_of_le hle with he | hlt
    · -- its timestamp is remembered now
      left
      rw [OHLCVNormaliser.seenFor_record, if_pos rfl, ← he]
      exact Recent.mem_keep (by decide)
    · right
      intro last hlast
      obtain rfl : c = last := Option.some.inj ((Dict.get?_set_self _ _ _).symm.trans hlast)
      exact hlt

private theorem newest_foldl {h : NormaliserHistory} {key : String × String} {cs : List OHLCVCandle}
    (hnew : h.Newest key) (hsorted : cs.Pairwise fun c c' => c.timestamp ≤ c'.timestamp)
    (htimely : ∀ c ∈ cs, h.normaliser.Timely key c) : (cs.foldl (take key) h).Newest key := by
  induction cs generalizing h with
  | nil => exact hnew
  | cons c cs ih =>
    obtain ⟨hle, hsorted⟩ := List.pairwise_cons.1 hsorted
    refine ih (newest_take hnew (htimely c List.mem_cons_self)) hsorted fun c' hc' => ?_
    exact timely_take (hle c' hc') (htimely c' (List.mem_cons_of_mem c hc'))

private theorem newest_foldl_of_ne {h : NormaliserHistory} {key key' : String × String} (hnew : h.Newest key)
    (hne : key ≠ key') (cs : List OHLCVCandle) : (cs.foldl (take key') h).Newest key := by
  induction cs generalizing h with
  | nil => exact hnew
  | cons c cs ih => exact ih (newest_take_of_ne hnew hne c)

private theorem newest_processBatch {h : NormaliserHistory} {key : String × String} {cs : List OHLCVCandle}
    (hnew : h.Newest key) (htimely : h.TimelyBatch cs) : (h.processBatch cs).Newest key := by
  cases cs with
  | nil => exact hnew
  | cons first rest =>
    have hreceived := newest_receive hnew (first.symbol, first.timeframe) (first :: rest).length
    by_cases hkey : key = (first.symbol, first.timeframe)
    · subst hkey
      refine newest_foldl hreceived (List.pairwise_insertionSort _ _) fun c hc => ?_
      exact htimely first rfl c ((List.mem_insertionSort _).1 hc)
    · exact newest_foldl_of_ne hreceived hkey _

private theorem newest_reset {h : NormaliserHistory} {key : String × String} (hnew : h.Newest key)
    (symbol timeframe : String) : (h.reset symbol timeframe).Newest key := by
  by_cases hkey : key = (symbol, timeframe)
  · subst hkey
    have hnone : (h.reset symbol timeframe).emittedFor (symbol, timeframe) = [] := by
      simp [reset, emittedFor, List.filter_filter]
    refine ⟨?_, ?_, ?_⟩
    · rw [hnone]; exact List.Pairwise.nil
    · rw [hnone]; exact Dict.get?_erase_self _ _
    · rw [hnone]
      unfold statsFor reset
      rw [Dict.get?_erase_self]
      rfl
  · have hsame : (h.reset symbol timeframe).emittedFor key = h.emittedFor key := by
      unfold reset emittedFor
      rw [List.filter_filter]
      refine List.filter_congr fun e _ => ?_
      by_cases he : e.key = key
      · simp [he, hkey]
      · simp [he]
    refine ⟨?_, ?_, ?_⟩
    · rw [hsame]; exact hnew.ascending
    · rw [hsame, ← hnew.last]; exact Dict.get?_erase_of_ne hkey _
    · rw [hsame, ← hnew.counted]
      unfold statsFor reset
      rw [Dict.get?_erase_of_ne hkey]

private theorem newest_step {h h' : NormaliserHistory} {key : String × String} {call : NormaliserCall}
    (hnew : h.Newest key) (hcall : h.NoneLate call) (hstep : h.step call = some h') : h'.Newest key := by
  cases call with
  | processBatch candles => cases hstep; exact newest_processBatch hnew hcall
  | processSingle candle => cases hstep; exact newest_processBatch hnew hcall
  | reset symbol timeframe => cases hstep; exact newest_reset hnew symbol timeframe

private theorem newest_init (key : String × String) : init.Newest key :=
  ⟨List.Pairwise.nil, rfl, rfl⟩

private theorem Newest.getLastCandle_iff {h : NormaliserHistory} {symbol timeframe : String}
    (hnew : h.Newest (symbol, timeframe)) (c : OHLCVCandle) :
    h.normaliser.getLastCandle symbol timeframe = some c ↔
      (∃ e ∈ h.emittedFor (symbol, timeframe), e.candle = c) ∧
        ∀ e ∈ h.emittedFor (symbol, timeframe), e.candle.timestamp ≤ c.timestamp := by
  unfold OHLCVNormaliser.getLastCandle
  constructor
  · intro hc
    constructor
    · rw [hnew.last] at hc
      obtain ⟨e, he, rfl⟩ := Option.map_eq_some_iff.1 hc
      exact ⟨e, List.mem_of_getLast? he, rfl⟩
    · intro e he
      obtain ⟨last, hlast, hle⟩ := hnew.le_last he
      rw [hlast] at hc
      cases hc
      exact hle
  · rintro ⟨⟨e, he, rfl⟩, hgreatest⟩
    obtain ⟨last, hmem, hlast, hle⟩ := hnew.eq_or_lt_last he
    rcases hle with rfl | hlt
    · exact hlast
    · exact absurd hlt (hgreatest last hmem).not_gt

end NormaliserHistory

/-- The last candle of a feed over every run of calls without late candles: it is the one with the greatest timestamp of
all that were emitted, and the gap counter counts the emissions at which a gap was found, each of them to every candle
emitted before. -/
theorem newest_candle_is_last {calls : List NormaliserCall} {h : NormaliserHistory}
    (hrun : exec NormaliserHistory.step .init calls = some h)
    (hnone : Along NormaliserHistory.step NormaliserHistory.NoneLate .init calls) (symbol timeframe : String) :
    (∀ c, h.normaliser.getLastCandle symbol timeframe = some c ↔
      (∃ e ∈ h.emittedFor (symbol, timeframe), e.candle = c) ∧
        ∀ e ∈ h.emittedFor (symbol, timeframe), e.candle.timestamp ≤ c.timestamp) ∧
      (h.statsFor (symbol, timeframe)).gaps = (h.emittedFor (symbol, timeframe)).countP Emission.gap ∧
      (h.emittedFor (symbol, timeframe)).Pairwise fun e e' =>
        e'.gap = true → IsGap timeframe e.candle e'.candle := by
  have hnew : h.Newest (symbol, timeframe) :=
    exec_invariant_along (fun h => h.Newest (symbol, timeframe))
      (fun _ _ _ hnew hcall hstep => NormaliserHistory.newest_step hnew hcall hstep)
      (NormaliserHistory.newest_init _) hnone hrun
  exact ⟨hnew.getLastCandle_iff, hnew.counted, hnew.ascending.imp fun hpair => hpair.2⟩

instance (h : NormaliserHistory) (candles : List OHLCVCandle) : Decidable (h.TimelyBatch candles) :=
  inferInstanceAs (Decidable (∀ first ∈ candles.head?, ∀ c ∈ candles, _))

instance (h : NormaliserHistory) : DecidablePred h.NoneLate
  | .processBatch candles => inferInstanceAs (Decidable (h.TimelyBatch candles))
  | .processSingle candle => inferInstanceAs (Decidable (h.TimelyBatch [candle]))
  | .reset _ _ => isTrue trivial

/-- An unordered batch with a repeated candle, then one candle after a gap. -/
def unorderedCalls : List NormaliserCall :=
  [.processBatch [minuteCandle 2, minuteCandle 1, minuteCandle 2], .processSingle (minuteCandle 5)]

theorem newest_candle_is_last_unordered : ∃ h,
    exec NormaliserHistory.step .init unorderedCalls = some h ∧
      h.normaliser.getLastCandle "BTC/USDT" "1m" = some (minuteCandle 5) ∧ (h.statsFor ("BTC/USDT", "1m")).gaps = 1 ∧
      ∀ e ∈ h.emittedFor ("BTC/USDT", "1m"), e.candle.timestamp ≤ (minuteCandle 5).timestamp := by
  have hnone : Along NormaliserHistory.step NormaliserHistory.NoneLate .init unorderedCalls := by decide +kernel
  obtain ⟨h, hrun, hlast, hgaps⟩ : ∃ h, exec NormaliserHistory.step .init unorderedCalls = some h ∧
      h.normaliser.getLastCandle "BTC/USDT" "1m" = some (minuteCandle 5) ∧
      (h.statsFor ("BTC/USDT", "1m")).gaps = 1 := ⟨_, rfl, by decide +kernel, by decide +kernel⟩
  have hnewest := (newest_candle_is_last hrun hnone "BTC/USDT" "1m").1 (minuteCandle 5)
  exact ⟨h, hrun, hlast, hgaps, (hnewest.1 hlast).2⟩

/-- After a late candle the last candle is not the newest one, and a gap is counted before a candle that comes only one
timeframe after the newest. -/
theorem late_candle_is_last :
    (∃ h, exec NormaliserHistory.step .init [.processBatch [minuteCandle 2], .processSingle (minuteCandle 1)] = some h ∧
      h.normaliser.getLastCandle "BTC/USDT" "1m" = some (minuteCandle 1) ∧
      ∃ e ∈ h.emittedFor ("BTC/USDT", "1m"), (minuteCandle 1).timestamp < e.candle.timestamp) ∧
    ∃ h, exec NormaliserHistory.step .init
        [.processBatch [minuteCandle 2], .processSingle (minuteCandle 1), .processSingle (minuteCandle 3)] = some h ∧
      (h.statsFor ("BTC/USDT", "1m")).gaps = 1 ∧ ¬IsGap "1m" (minuteCandle 2) (minuteCandle 3) := by
  refine ⟨⟨_, rfl, by decide +kernel, by decide +kernel⟩, ⟨_, rfl, by decide +kernel, by decide +kernel⟩⟩

end MultiAgentTrading
