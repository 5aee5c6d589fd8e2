import MultiAgentTrading.Mt5.AdvisorReader

/-!
# What Python reads of an error

The advisor puts its error replies together by hand, with `EscapeJSON` around the message, and cuts the last brace off
to add the command id.  `readString_escapeJSON` is what a JSON reader makes of an escaped message, whatever follows it:
the message, unless it has a control character other than tab, line feed and carriage return, for which there is no
replacement; then the whole reply is no JSON (`error_report_decodes_iff`).
-/

namespace MultiAgentTrading.Mt5

open Json

/-- `StringReplace` of a single character. -/
def stringReplace (find : Char) (replacement s : Text) : Text :=
  s.flatMap fun c => if c = find then replacement else [c]

/-- `EscapeJSON`. -/
def escapeJSON (s : Text) : Text :=
  let r := stringReplace '\\' ['\\', '\\'] s
  let r := stringReplace '"' ['\\', '"'] r
  let r := stringReplace '\n' ['\\', 'n'] r
  let r := stringReplace '\r' ['\\', 'r'] r
  stringReplace '\t' ['\\', 't'] r

/-- The text that `BuildError` returns; its first argument goes to the log only. -/
def buildErrorText (message : Text) (errCode : ℤ) : Text :=
  "\x7b\"status\":\"error\",".toList ++
    "\"error_code\":".toList ++ dumpsInt errCode ++ ",".toList ++
    "\"error_message\":\"".toList ++ escapeJSON message ++ "\"\x7d".toList

/-- The four handlers of an action. -/
structure ActionHandlers where
  placeOrder : Text → Text
  cancelOrder : Text → Text
  modifyStops : Text → Text
  closePosition : Text → Text

/-- What the handler of the action returns, or the error for an unknown one. -/
def ActionHandlers.resultBody (h : ActionHandlers) (action cmdJson : Text) : Text :=
  if action = "PLACE_ORDER".toList then h.placeOrder cmdJson
  else if action = "CANCEL_ORDER".toList then h.cancelOrder cmdJson
  else if action = "MODIFY_STOPS".toList then h.modifyStops cmdJson
  else if action = "CLOSE_POSITION".toList then h.closePosition cmdJson
  else buildErrorText ("Unknown action: ".toList ++ action) 0

/-- `ExecuteAction`: the command id goes before the closing brace. -/
def ActionHandlers.executeAction (h : ActionHandlers) (action cmdJson commandId : Text) : Text :=
  let body := h.resultBody action cmdJson
  let last := body.length - 1
  if 0 < last ∧ body[last]? = some '}' then
    body.take last ++ ",\"command_id\":\"".toList ++ commandId ++ "\"\x7d".toList
  else body

/-- `str(uuid4())`: 32 hexadecimal digits in five groups. -/
def uuidText (id : BitVec 128) : Text :=
  let hex := (List.range 32).map fun i => (id.toNat / 16 ^ (31 - i) % 16).digitChar
  hex.take 8 ++ '-' :: ((hex.drop 8).take 4 ++ '-' :: ((hex.drop 12).take 4 ++ '-' :: ((hex.drop 16).take 4 ++
    '-' :: hex.drop 20)))

/-- The reply decodes to the command id and the message. -/
def DecodesTo (F : FloatText) (reply commandId message : Text) : Prop :=
  ∃ body, loads F reply = some body ∧ body.get? "command_id".toList = some (.str commandId) ∧
    body.get? "error_message".toList = some (.str message)

/-! ### The escaped message -/

/-- A control character that `EscapeJSON` leaves as it is. -/
def Unescaped (c : Char) : Prop := c.toNat < 0x20 ∧ c ≠ '\t' ∧ c ≠ '\n' ∧ c ≠ '\r'

instance : DecidablePred Unescaped := fun c => inferInstanceAs (Decidable (c.toNat < 0x20 ∧ _))

private theorem stringReplace_append (find : Char) (replacement s t : Text) :
    stringReplace find replacement (s ++ t) = stringReplace find replacement s ++ stringReplace find replacement t :=
  List.flatMap_append

private theorem escapeJSON_cons (c : Char) (s : Text) : escapeJSON (c :: s) = escapeJSON [c] ++ escapeJSON s := by
  rw [← List.singleton_append]
  simp only [escapeJSON, stringReplace_append]

/-- The five replacements of one character: itself, or an escape that stands for it. -/
private theorem escapeJSON_cases (c : Char) :
    (c ≠ '"' ∧ c ≠ '\\' ∧ (c.toNat < 0x20 → Unescaped c) ∧ escapeJSON [c] = [c]) ∨
      ¬Unescaped c ∧ ∃ e, escapeJSON [c] = '\\' :: e ∧ ∀ t, readEscape (e ++ t) = some (c, t) := by
  by_cases hbackslash : c = '\\'
  · subst hbackslash
    exact .inr ⟨by decide, ['\\'], rfl, fun _ => rfl⟩
  by_cases hquote : c = '"'
  · subst hquote
    exact .inr ⟨by decide, ['"'], rfl, fun _ => rfl⟩
  by_cases hnewline : c = '\n'
  · subst hnewline
    exact .inr ⟨by decide, ['n'], rfl, fun _ => rfl⟩
  by_cases hreturn : c = '\r'
  · subst hreturn
    exact .inr ⟨by decide, ['r'], rfl, fun _ => rfl⟩
  by_cases htab : c = '\t'
  · subst htab
    exact .inr ⟨by decide, ['t'], rfl, fun _ => rfl⟩
  refine .inl ⟨hquote, hbackslash, fun hlow => ⟨hlow, htab, hnewline, hreturn⟩, ?_⟩
  simp [escapeJSON, stringReplace, hbackslash, hquote, hnewline, hreturn, htab]

/-- A reader of strings gets the message back if every control character in it has a replacement. -/
theorem readString_escapeJSON {n : ℕ} {message : Text} (h : ∀ c ∈ message, ¬Unescaped c) (hn : message.length < n)
    (rest : Text) : readString n (escapeJSON message ++ '"' :: rest) = some (message, rest) := by
  induction message generalizing n with
  | nil =>
    obtain ⟨n, rfl⟩ : ∃ m, n = m + 1 := ⟨n - 1, by omega⟩
    rfl
  | cons c s ih =>
    obtain ⟨hc, hs⟩ := List.forall_mem_cons.1 h
    rw [List.length_cons] at hn
    obtain ⟨n, rfl⟩ : ∃ m, n = m + 1 := ⟨n - 1, by omega⟩
    rw [escapeJSON_cons, List.append_assoc]
    rcases escapeJSON_cases c with ⟨hquote, hbackslash, hcontrol, hself⟩ | ⟨-, e, hescape, hread⟩
    · rw [hself, List.singleton_append, readString_plain hquote hbackslash fun hlow => hc (hcontrol hlow),
        ih hs (by omega)]
      rfl
    · rw [hescape, readString_escape (hread _), ih hs (by omega)]
      rfl

/-- And nothing otherwise. -/
theorem readString_escapeJSON_none {message : Text} {c : Char} (hmem : c ∈ message) (hc : Unescaped c) (n : ℕ)
    (rest : Text) : readString n (escapeJSON message ++ rest) = none := by
  induction message generalizing n with
  | nil => exact absurd hmem List.not_mem_nil
  | cons d s ih =>
    cases n with
    | zero => rfl
    | succ n =>
      rw [escapeJSON_cons, List.append_assoc]
      have htail : d ≠ c → readString n (escapeJSON s ++ rest) = none := fun hne =>
        ih ((List.mem_cons.1 hmem).resolve_left hne.symm) n
      rcases escapeJSON_cases d with ⟨hquote, hbackslash, -, hself⟩ | ⟨hd, e, hescape, hread⟩
      · rw [hself, List.singleton_append]
        by_cases hlow : d.toNat < 0x20
        · rw [readString, if_neg hquote, if_neg hbackslash, if_pos hlow]
        · have hne : d ≠ c := by
            rintro rfl
            exact hlow hc.1
          rw [readString_plain hquote hbackslash hlow, htail hne, Option.map_none]
      · have hne : d ≠ c := by
          rintro rfl
          exact hd hc
        rw [hescape, readString_escape (hread _), htail hne, Option.map_none]

/-! ### The whole reply -/

private theorem uuidText_plain (id : BitVec 128) : PlainText (uuidText id) := by
  have hhex : ∀ c ∈ (List.range 32).map fun i => (id.toNat / 16 ^ (31 - i) % 16).digitChar,
      0x20 ≤ c.toNat ∧ c.toNat ≤ 0x7e ∧ c ≠ '"' ∧ c ≠ '\\' := by
    intro c hc
    obtain ⟨i, -, rfl⟩ := List.mem_map.1 hc
    have hdigit : ∀ d < 16, 0x20 ≤ d.digitChar.toNat ∧ d.digitChar.toNat ≤ 0x7e ∧ d.digitChar ≠ '"' ∧
        d.digitChar ≠ '\\' := by decide
    exact hdigit _ (Nat.mod_lt _ (by decide))
  intro c hc
  simp only [uuidText, List.mem_append, List.mem_cons] at hc
  rcases hc with hc | rfl | hc | rfl | hc | rfl | hc | rfl | hc
  · exact hhex c (List.mem_of_mem_take hc)
  · decide
  · exact hhex c (List.mem_of_mem_drop (List.mem_of_mem_take hc))
  · decide
  · exact hhex c (List.mem_of_mem_drop (List.mem_of_mem_take hc))
  · decide
  · exact hhex c (List.mem_of_mem_drop (List.mem_of_mem_take hc))
  · decide
  · exact hhex c (List.mem_of_mem_drop hc)

/-- What follows the opening brace of an error with its command id. -/
def replyFields (message : Text) (errCode : ℤ) (commandId : Text) : Text :=
  dumpsStr "status".toList ++ ':' :: (dumpsStr "error".toList ++ ',' ::
    (dumpsStr "error_code".toList ++ ':' :: (dumpsInt errCode ++ ',' ::
      (dumpsStr "error_message".toList ++ ':' :: ('"' :: (escapeJSON message ++ '"' :: ',' ::
        (dumpsStr "command_id".toList ++ ':' :: (dumpsStr commandId ++ ['}']))))))))

/-- An error up to its closing brace. -/
private def errorFront (message : Text) (errCode : ℤ) : Text :=
  '{' :: (dumpsStr "status".toList ++ ':' :: (dumpsStr "error".toList ++ ',' ::
    (dumpsStr "error_code".toList ++ ':' :: (dumpsInt errCode ++ ',' ::
      (dumpsStr "error_message".toList ++ ':' :: '"' :: (escapeJSON message ++ ['"']))))))

private theorem append_parts (status error code int key message : Text) :
    '{' :: (status ++ ':' :: (error ++ [','])) ++ (code ++ [':']) ++ int ++ [','] ++ (key ++ [':', '"']) ++ message ++
        ['"', '}'] =
      '{' :: (status ++ ':' :: (error ++ ',' :: (code ++ ':' :: (int ++ ',' ::
        (key ++ ':' :: '"' :: (message ++ ['"'])))))) ++ ['}'] := by
  simp only [List.append_assoc, List.cons_append, List.nil_append]

private theorem buildErrorText_eq (message : Text) (errCode : ℤ) :
    buildErrorText message errCode = errorFront message errCode ++ ['}'] := by
  have hstatus : "\x7b\"status\":\"error\",".toList =
      '{' :: (dumpsStr "status".toList ++ ':' :: (dumpsStr "error".toList ++ [','])) := rfl
  have hcode : "\"error_code\":".toList = dumpsStr "error_code".toList ++ [':'] := rfl
  have hcomma : ",".toList = [','] := rfl
  have hmessage : "\"error_message\":\"".toList = dumpsStr "error_message".toList ++ [':', '"'] := rfl
  have hend : "\"\x7d".toList = ['"', '}'] := rfl
  unfold buildErrorText errorFront
  rw [hstatus, hcode, hcomma, hmessage, hend]
  exact append_parts _ _ _ _ _ _

/-- An error ends with a brace, and the command id takes its place. -/
theorem executeAction_buildErrorText {h : ActionHandlers} {action cmdJson message : Text} {errCode : ℤ}
    (hbody : h.resultBody action cmdJson = buildErrorText message errCode) {commandId : Text}
    (hplain : PlainText commandId) :
    h.executeAction action cmdJson commandId = '{' :: replyFields message errCode commandId := by
  have hid : ",\"command_id\":\"".toList = ',' :: (dumpsStr "command_id".toList ++ [':', '"']) := rfl
  have hend : "\"\x7d".toList = ['"', '}'] := rfl
  have hlength : 0 < (errorFront message errCode).length := Nat.succ_pos _
  have hlast : (errorFront message errCode ++ ['}']).length - 1 = (errorFront message errCode).length := by
    rw [List.length_append, List.length_singleton, Nat.add_sub_cancel]
  unfold ActionHandlers.executeAction
  dsimp only
  rw [hbody, buildErrorText_eq, hlast, if_pos ⟨hlength, List.getElem?_concat_length⟩, List.take_left' rfl, hid, hend]
  simp only [errorFront, replyFields, hplain.dumpsStr, List.append_assoc, List.cons_append, List.nil_append]

variable {F : FloatText} {message commandId : Text} {errCode : ℤ}

private theorem skip_dumpsStr (k t : Text) : skip (dumpsStr k ++ t) = dumpsStr k ++ t := rfl

/-- The value of a string field, with what follows it. -/
private theorem readValue_dumpsStr {n : ℕ} {s : Text} (hn : (dumpsStr s).length ≤ n) (rest : Text) :
    readValue F (n + 1) (skip (dumpsStr s ++ rest)) = some (.str s, rest) := reads_str s n rest hn

theorem length_le_escapeJSON (message : Text) : message.length ≤ (escapeJSON message).length := by
  induction message with
  | nil => exact Nat.zero_le _
  | cons c s ih =>
    have hc : 0 < (escapeJSON [c]).length := by
      rcases escapeJSON_cases c with ⟨-, -, -, hself⟩ | ⟨-, e, hescape, -⟩
      · rw [hself]
        exact Nat.one_pos
      · rw [hescape]
        exact Nat.succ_pos _
    rw [escapeJSON_cons, List.length_append, List.length_cons]
    omega

/-- The text is longer than what has to be read in it. -/
private theorem length_replyFields :
    message.length + (dumpsStr commandId).length + 30 ≤ (replyFields message errCode commandId).length := by
  have hstatus : (dumpsStr "status".toList).length = 8 := rfl
  have hkey : (dumpsStr "error_message".toList).length = 15 := rfl
  have hmessage := length_le_escapeJSON message
  have hid : (dumpsStr "command_id".toList).length = 12 := rfl
  simp only [replyFields, List.length_append, List.length_cons, hstatus, hkey, hid]
  omega

/-- The message field, if the message can be read back. -/
private theorem readValue_message {n : ℕ} (hmessage : ∀ c ∈ message, ¬Unescaped c) (hn : message.length < n)
    (rest : Text) :
    readValue F (n + 1) (skip ('"' :: (escapeJSON message ++ '"' :: rest))) = some (.str message, rest) := by
  show (readString n (escapeJSON message ++ '"' :: rest)).map _ = _
  rw [readString_escapeJSON hmessage hn]
  rfl

private theorem readValue_message_none {n : ℕ} {c : Char} (hmem : c ∈ message) (hc : Unescaped c) (rest : Text) :
    readValue F (n + 1) (skip ('"' :: (escapeJSON message ++ '"' :: rest))) = none := by
  show (readString n (escapeJSON message ++ '"' :: rest)).map _ = _
  rw [readString_escapeJSON_none hmem hc]
  rfl

/-- The two fields before the message. -/
private theorem readFields_reply {n : ℕ} (hn : 20 ≤ n) (rest : Text) :
    readFields (readValue F (n + 4)) (n + 4) (dumpsStr "status".toList ++ ':' :: (dumpsStr "error".toList ++ ',' ::
        (dumpsStr "error_code".toList ++ ':' :: (dumpsInt errCode ++ ',' :: rest)))) =
      (readFields (readValue F (n + 4)) (n + 2) (skip rest)).map fun r =>
        (("status".toList, .str "error".toList) :: ("error_code".toList, .int errCode) :: r.1, r.2) := by
  have hstatus : "status".toList.length = 6 := rfl
  have hcode : "error_code".toList.length = 10 := rfl
  have herror : (dumpsStr "error".toList).length = 7 := rfl
  have hends : EndsInt (',' :: rest) := by
    rintro c ⟨⟩
    decide
  rw [readFields_comma (n := n + 3) (by omega) (readValue_dumpsStr (by omega) _), skip_dumpsStr,
    readFields_comma (n := n + 2) (by omega) (readValue_dumpsInt hends), Option.map_map]
  rfl

/-- The reader comes to the fields after the brace. -/
private theorem loads_object {t : Text} (ht : skip t = t) (hhead : t.head? = some '"') :
    loads F ('{' :: t) = ((readFields (readValue F (t.length + 1)) (t.length + 1) t).map fun r =>
      (Json.obj (Dict.ofList r.1).entries, r.2)).bind fun r => if skip r.2 = [] then some r.1 else none := by
  obtain ⟨u, rfl⟩ : ∃ u, t = '"' :: u := ⟨t.tail, (List.cons_head?_tail hhead).symm⟩
  rfl

/-- The fields of the reply, if the message can be read back: status, code, message and command id. -/
theorem loads_replyFields (hmessage : ∀ c ∈ message, ¬Unescaped c) :
    loads F ('{' :: replyFields message errCode commandId) = some (.obj [("status".toList, .str "error".toList),
      ("error_code".toList, .int errCode), ("error_message".toList, .str message),
      ("command_id".toList, .str commandId)]) := by
  have hlength : message.length + (dumpsStr commandId).length + 30 ≤
      (replyFields message errCode commandId).length := length_replyFields
  have hkey : "error_message".toList.length = 13 := rfl
  have hid : "command_id".toList.length = 10 := rfl
  obtain ⟨n, hn⟩ : ∃ n, (replyFields message errCode commandId).length + 1 = n + 4 :=
    ⟨(replyFields message errCode commandId).length - 3, by omega⟩
  rw [loads_object rfl rfl, hn, replyFields, readFields_reply (by omega), skip_dumpsStr,
    readFields_comma (n := n + 1) (by omega) (readValue_message hmessage (by omega) _), skip_dumpsStr,
    readFields_last (n := n) (by omega) (readValue_dumpsStr (by omega) _)]
  simp only [Option.map_some, Option.bind_some]
  have hkeys : ["status".toList, "error_code".toList, "error_message".toList, "command_id".toList].Nodup := by
    decide
  have hentries := Dict.entries_ofList (l := [("status".toList, Json.str "error".toList),
    ("error_code".toList, .int errCode), ("error_message".toList, .str message),
    ("command_id".toList, .str commandId)]) hkeys
  rw [hentries]
  rfl

/-- The reply is no JSON if the message cannot. -/
theorem loads_replyFields_none {c : Char} (hmem : c ∈ message) (hc : Unescaped c) :
    loads F ('{' :: replyFields message errCode commandId) = none := by
  have hlength : message.length + (dumpsStr commandId).length + 30 ≤
      (replyFields message errCode commandId).length := length_replyFields
  have hkey : "error_message".toList.length = 13 := rfl
  obtain ⟨n, hn⟩ : ∃ n, (replyFields message errCode commandId).length + 1 = n + 4 :=
    ⟨(replyFields message errCode commandId).length - 3, by omega⟩
  rw [loads_object rfl rfl, hn, replyFields, readFields_reply (by omega), skip_dumpsStr,
    readFields_none (n := n + 1) (by omega) (readValue_message_none hmem hc _)]
  rfl

/-- An error reply decodes to its command id and message exactly if every control character of the message is a tab, a
line feed or a carriage return. -/
theorem error_report_decodes_iff (F : FloatText) (h : ActionHandlers) (action cmdJson message : Text) (errCode : ℤ)
    (id : BitVec 128) (hbody : h.resultBody action cmdJson = buildErrorText message errCode) :
    DecodesTo F (h.executeAction action cmdJson (uuidText id)) (uuidText id) message ↔
      ∀ c ∈ message, c.toNat < 0x20 → c = '\t' ∨ c = '\n' ∨ c = '\r' := by
  have hiff : (∀ c ∈ message, c.toNat < 0x20 → c = '\t' ∨ c = '\n' ∨ c = '\r') ↔ ∀ c ∈ message, ¬Unescaped c := by
    unfold Unescaped
    refine forall₂_congr fun c _ => ?_
    tauto
  rw [executeAction_buildErrorText hbody (uuidText_plain id), hiff, DecodesTo]
  constructor
  · rintro ⟨body, hread, -⟩ c hmem hc
    rw [loads_replyFields_none hmem hc] at hread
    cases hread
  · intro hmessage
    exact ⟨_, loads_replyFields hmessage, rfl, rfl⟩

/-- No handler does anything. -/
def idleHandlers : ActionHandlers := ⟨id, id, id, id⟩

/-- Quotes, backslashes and line breaks in every combination come back. -/
theorem error_report_decodes_quoted :
    idleHandlers.resultBody "\\\"\n".toList [] = buildErrorText "Unknown action: \\\"\n".toList 0 ∧
      DecodesTo .decimal (idleHandlers.executeAction "\\\"\n".toList [] (uuidText 7)) (uuidText 7)
        "Unknown action: \\\"\n".toList :=
  ⟨by decide, (error_report_decodes_iff .decimal idleHandlers "\\\"\n".toList []
    "Unknown action: \\\"\n".toList 0 7 (by decide)).2
      (@of_decide_eq_true _ (List.decidableBAll _ _) (by decide))⟩

/-- The broker's comment on a rejected order is a backspace: what the terminal posts is no JSON. -/
theorem error_report_lost :
    let h : ActionHandlers := { idleHandlers with placeOrder := fun _ => buildErrorText [Char.ofNat 8] 10006 }
    loads .decimal (h.executeAction "PLACE_ORDER".toList [] (uuidText 7)) = none ∧
      ¬DecodesTo .decimal (h.executeAction "PLACE_ORDER".toList [] (uuidText 7)) (uuidText 7) [Char.ofNat 8] := by
  intro h
  have hnone : loads .decimal (h.executeAction "PLACE_ORDER".toList [] (uuidText 7)) = none := by
    have hbody : h.resultBody "PLACE_ORDER".toList [] = buildErrorText [Char.ofNat 8] 10006 := rfl
    rw [executeAction_buildErrorText hbody (uuidText_plain 7)]
    exact loads_replyFields_none List.mem_cons_self (by decide)
  refine ⟨hnone, ?_⟩
  rintro ⟨body, hread, -⟩
  rw [hnone] at hread
  cases hread

end MultiAgentTrading.Mt5
