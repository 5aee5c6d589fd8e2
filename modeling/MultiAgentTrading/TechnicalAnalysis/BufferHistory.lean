import MultiAgentTrading.Lib.Recent
import MultiAgentTrading.Lib.Records
import MultiAgentTrading.TechnicalAnalysis.CandleBuffer

/-!
# What the candle buffers hold

`buffers_hold_records`: after any stream of candles the buffer of each symbol and timeframe holds the newest records of
its own candles.  A buffer compares a candle only with the newest one it holds, and forgets the oldest at capacity;
since what it holds is ascending, it can take nothing back that it has forgotten.
-/

namespace MultiAgentTrading

open Records

def OHLCVCandle.pair (c : OHLCVCandle) : String × String := (c.symbol, c.timeframe)

namespace CandleBuffer

/-- A buffer holds the newest records of a list of candles. -/
def Holds (b : CandleBuffer) (cs : List OHLCVCandle) : Prop :=
  b.candles = Recent.keep b.capacity (records OHLCVCandle.timestamp cs)

theorem holds_forPair (symbol timeframe : String) : (forPair symbol timeframe).Holds [] := by
  rw [Holds, records_nil]
  exact List.drop_nil.symm

@[simp] theorem capacity_add (b : CandleBuffer) (c : OHLCVCandle) : (b.add c).capacity = b.capacity := by
  unfold add
  split <;> rfl

theorem candles_add_of_accepts {b : CandleBuffer} {c : OHLCVCandle} (h : b.accepts c = true) :
    (b.add c).candles = Recent.keep b.capacity (b.candles ++ [c]) := by
  unfold add
  rw [dif_pos h]
  rfl

theorem add_of_rejected {b : CandleBuffer} {c : OHLCVCandle} (h : b.accepts c = false) : b.add c = b := by
  unfold add
  rw [dif_neg (by rw [h]; exact Bool.false_ne_true)]

theorem accepts_iff {b : CandleBuffer} {c : OHLCVCandle} :
    b.accepts c = true ↔ ∀ latest ∈ b.latestCandle, latest.timestamp < c.timestamp := by
  unfold accepts
  cases b.latestCandle with
  | none => simp
  | some latest => simp

/-- A buffer that holds something accepts what is newer than every candle it was offered. -/
theorem Holds.accepts_iff {b : CandleBuffer} {cs : List OHLCVCandle} (h : b.Holds cs) (hb : 0 < b.capacity)
    (c : OHLCVCandle) : b.accepts c = true ↔ ∀ c' ∈ cs, c'.timestamp < c.timestamp := by
  rw [CandleBuffer.accepts_iff, ← forall_records_lt_iff, forall_lt_iff_getLast (pairwise_records cs), latestCandle, h,
    Recent.getLast?_keep hb]

theorem Holds.add {b : CandleBuffer} {cs : List OHLCVCandle} (h : b.Holds cs) (c : OHLCVCandle) :
    (b.add c).Holds (cs ++ [c]) := by
  unfold Holds
  rw [capacity_add, records_concat]
  rcases Nat.eq_zero_or_pos b.capacity with hzero | hpos
  · -- a buffer without capacity accepts everything and holds nothing
    have hlen := (b.add c).length_le
    rw [capacity_add, hzero] at hlen
    rw [hzero, Recent.keep_zero]
    exact List.eq_nil_of_length_eq_zero (Nat.le_zero.1 hlen)
  · by_cases hc : b.accepts c = true
    · -- by its order, what is newer than the newest is newer than all that has been forgotten
      have hnewest := forall_records_lt_iff.2 ((h.accepts_iff hpos c).1 hc)
      rw [push_of_lt hnewest, candles_add_of_accepts hc, h, Recent.keep_keep_append]
    · have hold := mt forall_records_lt_iff.1 (mt (h.accepts_iff hpos c).2 hc)
      rw [push_of_not_lt hold, add_of_rejected (Bool.eq_false_of_not_eq_true hc)]
      exact h

/-- The order of a list with distinct timestamps does not matter to `add_many`. -/
theorem addMany_perm (b : CandleBuffer) {cs cs' : List OHLCVCandle} (hperm : cs.Perm cs')
    (hdistinct : (cs.map OHLCVCandle.timestamp).Nodup) : b.addMany cs = b.addMany cs' := by
  have hsame : (cs.insertionSort fun c c' => c.timestamp ≤ c'.timestamp) =
      cs'.insertionSort fun c c' => c.timestamp ≤ c'.timestamp := by
    refine List.Perm.eq_of_pairwise ?_ (List.pairwise_insertionSort _ _) (List.pairwise_insertionSort _ _)
      (((List.perm_insertionSort _ cs).trans hperm).trans (List.perm_insertionSort _ cs').symm)
    intro c c' hc hc' hle hge
    have hmem := (List.mem_insertionSort _).1 hc
    have hmem' := hperm.mem_iff.2 ((List.mem_insertionSort _).1 hc')
    exact List.inj_on_of_nodup_map hdistinct hmem hmem' (le_antisymm hle hge)
  rw [addMany, addMany, hsame]

end CandleBuffer

namespace CandleBufferRegistry

/-- What the registry keeps: there is a buffer for every pair that has come, and it holds the records of that pair's
candles. -/
structure HoldsAll (r : CandleBufferRegistry) (cs : List OHLCVCandle) : Prop where
  routed : ∀ key, (r.get? key).isSome = true ↔ ∃ c ∈ cs, c.pair = key
  holds : ∀ key, ((r.get? key).getD (.forPair key.1 key.2)).Holds (cs.filter fun c => c.pair = key)
  capacity : ∀ key, ((r.get? key).getD (.forPair key.1 key.2)).capacity = maxBufferSize

private theorem holdsAll_empty : HoldsAll .empty [] where
  routed := fun _ => ⟨fun h => Bool.noConfusion h, fun ⟨_, hc, _⟩ => (List.not_mem_nil hc).elim⟩
  holds := fun key => CandleBuffer.holds_forPair key.1 key.2
  capacity := fun _ => rfl

/-- The buffers of the other pairs are left alone. -/
theorem get?_add_of_ne (r : CandleBufferRegistry) {c : OHLCVCandle} {key : String × String} (h : key ≠ c.pair) :
    (r.add c).2.get? key = r.get? key := Dict.get?_set_of_ne h _ _

theorem get?_add_self (r : CandleBufferRegistry) (c : OHLCVCandle) :
    (r.add c).2.get? c.pair = some (((r.get? c.pair).getD (.forPair c.symbol c.timeframe)).add c) :=
  Dict.get?_set_self _ _ _

/-- Candles of one pair go to one buffer. -/
theorem getD_addAll {r : CandleBufferRegistry} {key : String × String} {cs : List OHLCVCandle}
    (hcs : ∀ c ∈ cs, c.pair = key) :
    ((addAll r cs).get? key).getD (.forPair key.1 key.2) =
      cs.foldl CandleBuffer.add ((r.get? key).getD (.forPair key.1 key.2)) := by
  induction cs using List.reverseRecOn with
  | nil => rfl
  | append_singleton cs c ih =>
    have hc : c.pair = key := hcs c (List.mem_append_right _ (List.mem_singleton_self c))
    have hinit := ih fun c' hc' => hcs c' (List.mem_append_left _ hc')
    subst hc
    rw [List.foldl_append, ← hinit, addAll, List.foldl_append]
    show ((add _ c).2.get? c.pair).getD _ = _
    rw [get?_add_self, Option.getD_some]
    rfl

theorem get?_addAll_concat {r : CandleBufferRegistry} {cs : List OHLCVCandle} {c : OHLCVCandle}
    (hcs : ∀ c' ∈ cs, c'.pair = c.pair) :
    (addAll r (cs ++ [c])).get? c.pair =
      some ((cs ++ [c]).foldl CandleBuffer.add ((r.get? c.pair).getD (.forPair c.symbol c.timeframe))) := by
  have hinit : ((addAll r cs).get? c.pair).getD (.forPair c.symbol c.timeframe) = _ := getD_addAll hcs
  rw [List.foldl_append, addAll, List.foldl_append]
  show (add (addAll r cs) c).2.get? c.pair = _
  rw [get?_add_self, hinit]
  rfl

private theorem HoldsAll.add {r : CandleBufferRegistry} {cs : List OHLCVCandle} (h : HoldsAll r cs)
    (c : OHLCVCandle) : HoldsAll (r.add c).2 (cs ++ [c]) := by
  refine ⟨fun key => ?_, fun key => ?_, fun key => ?_⟩
  all_goals by_cases hkey : key = c.pair
  · subst hkey
    rw [get?_add_self]
    exact iff_of_true rfl ⟨c, List.mem_append_right _ (List.mem_singleton_self c), rfl⟩
  · rw [r.get?_add_of_ne hkey, h.routed]
    constructor
    · rintro ⟨c', hc', he⟩
      exact ⟨c', List.mem_append_left _ hc', he⟩
    · rintro ⟨c', hc', he⟩
      rcases List.mem_append.1 hc' with hc' | hc'
      · exact ⟨c', hc', he⟩
      · rw [List.mem_singleton.1 hc'] at he
        exact absurd he.symm hkey
  · subst hkey
    have hfilter : (cs ++ [c]).filter (fun c' => c'.pair = c.pair) =
        cs.filter (fun c' => c'.pair = c.pair) ++ [c] := by
      simp
    rw [get?_add_self, Option.getD_some, hfilter]
    exact (h.holds c.pair).add c
  · have hfilter : (cs ++ [c]).filter (fun c' => c'.pair = key) = cs.filter fun c' => c'.pair = key := by
      simp [Ne.symm hkey]
    rw [r.get?_add_of_ne hkey, hfilter]
    exact h.holds key
  · subst hkey
    rw [get?_add_self, Option.getD_some, CandleBuffer.capacity_add]
    exact h.capacity c.pair
  · rw [r.get?_add_of_ne hkey]
    exact h.capacity key

private theorem holdsAll_addAll (cs : List OHLCVCandle) : HoldsAll (addAll .empty cs) cs := by
  induction cs using List.reverseRecOn with
  | nil => exact holdsAll_empty
  | append_singleton cs c ih =>
    rw [addAll, List.foldl_append]
    exact ih.add c

end CandleBufferRegistry

/-- What the buffers hold after any stream of candles: each that has come into being holds exactly the newest records of
its pair's candles, in ascending order, up to its capacity; a candle leaves the buffers of the other pairs alone; and
`add_many` does not depend on the order of a list with distinct timestamps. -/
theorem buffers_hold_records (cs : List OHLCVCandle) :
    let r := CandleBufferRegistry.addAll .empty cs
    (∀ key, (r.get? key).isSome = true ↔ ∃ c ∈ cs, c.pair = key) ∧
      (∀ key b, r.get? key = some b → b.capacity = maxBufferSize ∧
        b.candles = Recent.keep b.capacity (records OHLCVCandle.timestamp (cs.filter fun c => c.pair = key)) ∧
        b.candles.Pairwise fun c c' => c.timestamp < c'.timestamp) ∧
      (∀ c key, key ≠ c.pair → (r.add c).2.get? key = r.get? key) ∧
      ∀ (b : CandleBuffer) (l l' : List OHLCVCandle), l.Perm l' → (l.map OHLCVCandle.timestamp).Nodup →
        b.addMany l = b.addMany l' := by
  dsimp only
  have hall := CandleBufferRegistry.holdsAll_addAll cs
  refine ⟨hall.routed, fun key b hb => ?_, fun c key => CandleBufferRegistry.get?_add_of_ne _, ?_⟩
  · have hholds := hall.holds key
    have hcapacity := hall.capacity key
    rw [hb, Option.getD_some] at hholds hcapacity
    exact ⟨hcapacity, hholds, b.sorted⟩
  · exact fun b l l' hperm hdistinct => b.addMany_perm hperm hdistinct

end MultiAgentTrading
