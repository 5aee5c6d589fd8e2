import MultiAgentTrading.Lib.CompactJson
import MultiAgentTrading.Lib.FixedPoint
import MultiAgentTrading.Mt5.ErrorReport

/-!
# The texts that the advisor posts

The advisor writes its JSON by hand: keys and short texts as they are, messages with their special characters replaced,
numbers with a fixed number of decimals.  What it posts is an object with the fields it means (`readsAs_replyText`), as
long as no text holds what is not replaced.
-/

open Json

namespace MultiAgentTrading.Mt5

/-- The last units of a number rounded to some decimals, halves away from zero. -/
def units (x : ℚ) (digits : ℕ) : ℕ := ⌊|x| * 10 ^ digits + 1 / 2⌋₊

/-- `NormalizeDouble`. -/
def normalizeDouble (x : ℚ) (digits : ℕ) : ℚ := (if x < 0 then -(units x digits : ℚ) else units x digits) / 10 ^ digits

private theorem units_div (x : ℚ) (digits : ℕ) :
    |(units x digits : ℚ) / 10 ^ digits - abs x| ≤ 1 / 2 / 10 ^ digits := by
  have hpow : (0 : ℚ) < 10 ^ digits := by positivity
  have hnonneg : 0 ≤ |x| * 10 ^ digits + 1 / 2 := by positivity
  have hle : (units x digits : ℚ) ≤ |x| * 10 ^ digits + 1 / 2 := Nat.floor_le hnonneg
  have hlt : |x| * 10 ^ digits + 1 / 2 < (units x digits : ℚ) + 1 := Nat.lt_floor_add_one _
  have heq : (units x digits : ℚ) / 10 ^ digits - |x| = (units x digits - |x| * 10 ^ digits) / 10 ^ digits := by
    field_simp
  rw [heq, abs_div, abs_of_pos hpow]
  apply div_le_div_of_nonneg_right _ hpow.le
  rw [abs_le]
  constructor <;> linarith

/-- A number is moved by at most half a unit. -/
theorem abs_normalizeDouble_sub_le (x : ℚ) (digits : ℕ) : |normalizeDouble x digits - x| ≤ 1 / 2 / 10 ^ digits := by
  have hunits := units_div x digits
  unfold normalizeDouble
  split
  · next hneg =>
    rw [abs_of_neg hneg] at hunits
    have heq : -(units x digits : ℚ) / 10 ^ digits - x = -((units x digits : ℚ) / 10 ^ digits - -x) := by ring
    rwa [heq, abs_neg]
  · next hneg => rwa [abs_of_nonneg (not_lt.1 hneg)] at hunits

/-- Rounding does not pass a number of so many decimals. -/
theorem normalizeDouble_le {x : ℚ} {digits n : ℕ} (h : x ≤ n / 10 ^ digits) :
    normalizeDouble x digits ≤ n / 10 ^ digits := by
  have hpow : (0 : ℚ) < 10 ^ digits := by positivity
  unfold normalizeDouble
  apply div_le_div_of_nonneg_right _ hpow.le
  split
  · have hunits : (0 : ℚ) ≤ units x digits := Nat.cast_nonneg _
    have hn : (0 : ℚ) ≤ n := Nat.cast_nonneg n
    linarith
  · next hneg =>
    rw [le_div_iff₀ hpow] at h
    have hlt : |x| * 10 ^ digits + 1 / 2 < (n + 1 : ℕ) := by
      rw [abs_of_nonneg (not_lt.1 hneg)]
      push_cast
      linarith
    have hunits : units x digits < n + 1 := (Nat.floor_lt (by positivity)).2 hlt
    exact_mod_cast Nat.lt_succ_iff.1 hunits

theorem le_normalizeDouble {x : ℚ} {digits n : ℕ} (h : (n : ℚ) / 10 ^ digits ≤ x) :
    (n : ℚ) / 10 ^ digits ≤ normalizeDouble x digits := by
  have hpow : (0 : ℚ) < 10 ^ digits := by positivity
  have hx : 0 ≤ x := le_trans (by positivity) h
  unfold normalizeDouble
  apply div_le_div_of_nonneg_right _ hpow.le
  rw [if_neg (not_lt.2 hx)]
  rw [div_le_iff₀ hpow] at h
  have hunits : n ≤ units x digits := Nat.le_floor (by rw [abs_of_nonneg hx]; linarith)
  exact_mod_cast hunits

/-- `DoubleToString`, with at least one decimal. -/
def doubleToString (x : ℚ) (digits : ℕ) : Text := FixedPoint.text (decide (x < 0)) digits (units x digits)

/-- What the fields of a reply hold: a text as it is, a message with its special characters replaced, an integer, or a
number with so many decimals. -/
inductive ReplyValue
  | str (s : Text)
  | message (s : Text)
  | int (n : ℤ)
  | number (digits : ℕ) (x : ℚ)

namespace ReplyValue

def text : ReplyValue → Text
  | .str s => '"' :: (s ++ ['"'])
  | .message s => '"' :: (escapeJSON s ++ ['"'])
  | .int n => dumpsInt n
  | .number digits x => doubleToString x digits

/-- What is read of a value. -/
def json : ReplyValue → Json
  | .str s => .str s
  | .message s => .str s
  | .int n => .int n
  | .number digits x => .float (.finite (decide (x < 0)) (units x digits) (-digits))

/-- A text without quotes, one of which everything is replaced that has to be, or a number with decimals. -/
def Readable : ReplyValue → Prop
  | .str s => PlainText s
  | .message s => ∀ c ∈ s, ¬Unescaped c
  | .int _ => True
  | .number digits _ => 0 < digits

end ReplyValue

def replyText (fields : List (Text × ReplyValue)) : Text := objectText (fields.map fun p => (p.1, p.2.text))

def replyJson (fields : List (Text × ReplyValue)) : Json := .obj (fields.map fun p => (p.1, p.2.json))

/-! ### Reading a reply -/

private theorem readValue_quoted {n : ℕ} {s t rest : Text} (h : readString n (t ++ '"' :: rest) = some (s, rest)) :
    readValue .decimal (n + 1) (skip ('"' :: (t ++ ['"']) ++ rest)) = some (.str s, rest) := by
  show (readString n (t ++ ['"'] ++ rest)).map _ = _
  rw [List.append_assoc, List.singleton_append, h]
  rfl

theorem ReplyValue.readsAs {v : ReplyValue} (hv : v.Readable) : ReadsAs .decimal v.text v.json := by
  intro n rest hn hrest
  cases v with
  | str s =>
    have hs : PlainText s := hv
    have hread := reads_str (F := .decimal) s n rest
    rw [dumps, hs.dumpsStr] at hread
    exact hread hn
  | message s =>
    have hlength := length_le_escapeJSON s
    simp only [ReplyValue.text, List.length_cons, List.length_append, List.length_nil] at hn
    exact readValue_quoted (readString_escapeJSON hv (by omega) rest)
  | int k =>
    refine readValue_dumpsInt fun c hc => ?_
    rcases hrest c hc with rfl | rfl | rfl <;> decide
  | number digits x => exact FixedPoint.readValue_text rfl hv _ hrest

/-- A reply reads as the fields it was written for. -/
theorem readsAs_replyText {fields : List (Text × ReplyValue)}
    (hfields : ∀ p ∈ fields, PlainText p.1 ∧ p.2.Readable) (hnodup : (fields.map Prod.fst).Nodup) :
    ReadsAs .decimal (replyText fields) (replyJson fields) := by
  have hread := readsAs_object (F := .decimal) (fields.map fun p => (p.1, p.2.text, p.2.json)) ?_ ?_ ?_
  · rw [List.map_map, List.map_map] at hread
    exact hread
  · intro p hp
    obtain ⟨q, hq, rfl⟩ := List.mem_map.1 hp
    exact (hfields q hq).1.dumpsStr
  · intro p hp
    obtain ⟨q, hq, rfl⟩ := List.mem_map.1 hp
    exact ReplyValue.readsAs (hfields q hq).2
  · rw [List.map_map]
    exact hnodup

/-! ### The texts of the handlers -/

private theorem joinFields_concat {fields : List (Text × Text)} (hne : fields ≠ []) (p : Text × Text) :
    joinFields (fields ++ [p]) = joinFields fields ++ ',' :: joinFields [p] := by
  induction fields with
  | nil => exact absurd rfl hne
  | cons q fields ih =>
    obtain ⟨k, v⟩ := q
    cases fields with
    | nil => simp [joinFields]
    | cons r fields =>
      have htail := ih (List.cons_ne_nil r fields)
      simp only [List.cons_append] at htail ⊢
      simp only [joinFields, htail, List.append_assoc, List.cons_append]

/-- `ExecuteAction` adds the command id to the fields. -/
theorem executeAction_replyText {h : ActionHandlers} {action cmdJson : Text} {fields : List (Text × ReplyValue)}
    (hne : fields ≠ []) (hbody : h.resultBody action cmdJson = replyText fields) (commandId : Text) :
    h.executeAction action cmdJson commandId = replyText (fields ++ [("command_id".toList, .str commandId)]) := by
  have hid : ",\"command_id\":\"".toList = ',' :: '"' :: ("command_id".toList ++ ['"', ':', '"']) := rfl
  have hend : "\"\x7d".toList = ['"', '}'] := rfl
  set joined := joinFields (fields.map fun p => (p.1, p.2.text)) with hjoined
  have hfront : replyText fields = ('{' :: joined) ++ ['}'] := rfl
  have hlast : (('{' :: joined) ++ ['}']).length - 1 = ('{' :: joined).length := by
    rw [List.length_append, List.length_singleton, Nat.add_sub_cancel]
  have hpos : 0 < ('{' :: joined).length := Nat.succ_pos _
  unfold ActionHandlers.executeAction
  dsimp only
  rw [hbody, hfront, hlast, if_pos ⟨hpos, List.getElem?_concat_length⟩, List.take_left' rfl, hid, hend, replyText,
    objectText, List.map_append, List.map_cons, List.map_nil, joinFields_concat (by simpa using hne), ← hjoined]
  simp only [joinFields, ReplyValue.text, List.append_assoc, List.cons_append, List.nil_append]

theorem buildErrorText_eq_replyText (message : Text) (errCode : ℤ) :
    buildErrorText message errCode = replyText
      [("status".toList, .str "error".toList), ("error_code".toList, .int errCode),
        ("error_message".toList, .message message)] := by
  unfold buildErrorText
  simp only [replyText, objectText, List.map_cons, List.map_nil, joinFields, ReplyValue.text, String.reduceToList,
    List.append_assoc, List.cons_append, List.nil_append]

end MultiAgentTrading.Mt5
