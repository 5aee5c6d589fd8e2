import MultiAgentTrading.Execution.DecimalBooks
import MultiAgentTrading.Lib.Scan
import MultiAgentTrading.Mt5.LiveLoss

/-!
# What the advisor reads of a command

The bridge writes a command as compact JSON; the advisor does not parse it, it searches for `"key":` and reads what
follows.  In such a text every quote is the quote of a key or of a value, so a key is only found where it stands as a
key, and the value read there is the one that was written, for every key of every command (`advisor_reads_back`).  An
absent key is not found either, with one exception: to the search the colon between a key and a string value looks like
a key of its own if the value begins with a colon.
-/

namespace MultiAgentTrading.Mt5

/-! ### What the bridge sends -/

inductive CommandValue
  | str (s : Text)
  | int (n : ℤ)
  | float (x : ℚ)

/-- What ends a number for `ParseJSONDouble`. -/
def isDelimiter (c : Char) : Bool := c = ',' ∨ c = '}' ∨ c = ']' ∨ c = ' ' ∨ c = '\n' ∨ c = '\r'

/-- How floats are written: in some characters, none of which is a quote or ends a number. -/
structure FloatRepr where
  repr : ℚ → Text
  ne_nil : ∀ x, repr x ≠ []
  plain : ∀ x, ∀ c ∈ repr x, c ≠ '"' ∧ isDelimiter c = false

def CommandValue.dumps (F : FloatRepr) : CommandValue → Text
  | .str s => Json.dumpsStr s
  | .int n => Json.dumpsInt n
  | .float x => F.repr x

/-- The fields of an object with the separators `","` and `":"`. -/
def compactFields (F : FloatRepr) : List (Text × CommandValue) → Text
  | [] => []
  | [(k, v)] => Json.dumpsStr k ++ ':' :: v.dumps F
  | (k, v) :: p :: ps => Json.dumpsStr k ++ ':' :: (v.dumps F ++ ',' :: compactFields F (p :: ps))

def dumpsCompact (F : FloatRepr) (fields : List (Text × CommandValue)) : Text :=
  '{' :: (compactFields F fields ++ ['}'])

/-- The dictionaries of the four methods. -/
def CommandAction.fields (proposalText : ℕ → Text) : CommandAction → List (Text × CommandValue)
  | .placeOrder order =>
    [("action".toList, .str "PLACE_ORDER".toList), ("proposal_id".toList, .str (proposalText order.proposalId)),
      ("symbol".toList, .str order.symbol.toList), ("side".toList, .str order.side.value),
      ("order_type".toList, .str "market".toList), ("volume".toList, .float order.volume),
      ("stop_loss_pct".toList, .float order.stopLossPct), ("take_profit_pct".toList, .float order.takeProfitPct),
      ("magic".toList, .int magicNumber),
      ("comment".toList, .str ("ts_".toList ++ (proposalText order.proposalId).take 8))]
  | .other (.cancelOrder orderId symbol) =>
    [("action".toList, .str "CANCEL_ORDER".toList), ("order_id".toList, .str orderId.toList),
      ("symbol".toList, .str symbol.toList)]
  | .other (.closePosition symbol) =>
    [("action".toList, .str "CLOSE_POSITION".toList), ("symbol".toList, .str symbol.toList),
      ("magic".toList, .int magicNumber)]
  | .other (.modifyStops orderId symbol stopLoss takeProfit) =>
    [("action".toList, .str "MODIFY_STOPS".toList), ("order_id".toList, .str orderId.toList),
      ("symbol".toList, .str symbol.toList), ("stop_loss".toList, .float (stopLoss.getD 0)),
      ("take_profit".toList, .float (takeProfit.getD 0))]

/-- What is sent of a command: the status, its dictionary, and the id that `_enqueue_and_wait` adds. -/
def Command.fields (proposalText commandText : ℕ → Text) (c : Command) : List (Text × CommandValue) :=
  ("status".toList, .str "ok".toList) :: (c.action.fields proposalText ++
    [("command_id".toList, .str (commandText c.id))])

/-- The reply of `_handle_command`. -/
def Command.payload (F : FloatRepr) (proposalText commandText : ℕ → Text) (c : Command) : Text :=
  dumpsCompact F (c.fields proposalText commandText)

/-! ### What the advisor does with it -/

def keyNeedle (key : Text) : Text := '"' :: (key ++ ['"', ':'])

/-- `ParseJSONString`; the position in the text is what is left of it. -/
def parseJSONString (json key : Text) : Text :=
  match Scan.after? (keyNeedle key) json with
  | none => []
  | some rest =>
    match rest.dropWhile (· = ' ') with
    | '"' :: value =>
      match Scan.find? ['"'] value with
      | none => []
      | some stop => value.take stop
    | _ => []

/-- The text that `ParseJSONDouble` converts, none where it returns zero without. -/
def parseJSONNumber (json key : Text) : Option Text :=
  match Scan.after? (keyNeedle key) json with
  | none => none
  | some rest =>
    let token := (rest.dropWhile (· = ' ')).takeWhile fun c => !isDelimiter c
    if token = [] then none else some token

def parseJSONDouble (stringToDouble : Text → ℚ) (json key : Text) : ℚ :=
  match parseJSONNumber json key with
  | none => 0
  | some token => stringToDouble token

/-! ### The text of a command, by its quotes -/

/-- Printable ASCII without double quote and backslash. -/
def PlainText (s : Text) : Prop := ∀ c ∈ s, 0x20 ≤ c.toNat ∧ c.toNat ≤ 0x7e ∧ c ≠ '"' ∧ c ≠ '\\'

instance (s : Text) : Decidable (PlainText s) := List.decidableBAll _ s

/-- A string value is plain. -/
def CommandValue.IsPlain : CommandValue → Prop
  | .str s => PlainText s
  | _ => True

instance : DecidablePred CommandValue.IsPlain
  | .str s => inferInstanceAs (Decidable (PlainText s))
  | .int _ => isTrue trivial
  | .float _ => isTrue trivial

/-- A field as the bridge sends it: plain texts, and a key that does not begin with a colon. -/
structure PlainField (p : Text × CommandValue) : Prop where
  key : PlainText p.1
  head : p.1.head? ≠ some ':'
  value : p.2.IsPlain

theorem PlainText.not_mem {s : Text} (h : PlainText s) : '"' ∉ s := fun hmem => (h _ hmem).2.2.1 rfl

/-- A plain text is written as it is. -/
theorem PlainText.dumpsStr {s : Text} (h : PlainText s) : Json.dumpsStr s = '"' :: (s ++ ['"']) := by
  have hself : s.flatMap Json.escapeChar = s := by
    induction s with
    | nil => rfl
    | cons c s ih =>
      obtain ⟨hc, hs⟩ := List.forall_mem_cons.1 h
      rw [List.flatMap_cons, ih hs, Json.escapeChar_of_printable hc.2.2.1 hc.2.2.2 hc.1 hc.2.1, List.singleton_append]
  rw [Json.dumpsStr, hself]

/-- A field cut at its quotes, with what follows it. -/
def fieldSegments (F : FloatRepr) (sep : Char) : Text × CommandValue → List Text
  | (k, .str s) => [k, [':'], s, [sep]]
  | (k, v) => [k, ':' :: (v.dumps F ++ [sep])]

def objectSegments (F : FloatRepr) : List (Text × CommandValue) → List Text
  | [] => []
  | [p] => fieldSegments F '}' p
  | p :: q :: ps => fieldSegments F ',' p ++ objectSegments F (q :: ps)

variable (F : FloatRepr)

private theorem isDelimiter_of_isDigit {c : Char} (h : c.isDigit = true) : c ≠ '"' ∧ isDelimiter c = false := by
  have hne : ∀ d : Char, d.isDigit = false → c ≠ d := fun d hd heq => by rw [heq, hd] at h; cases h
  refine ⟨hne '"' (by decide), decide_eq_false ?_⟩
  simp only [not_or]
  exact ⟨hne _ (by decide), hne _ (by decide), hne _ (by decide), hne _ (by decide), hne _ (by decide),
    hne _ (by decide)⟩

/-- A number is written in some characters, none of which is a quote or ends it. -/
private theorem CommandValue.number_plain {v : CommandValue} (h : ∀ s, v ≠ .str s) :
    v.dumps F ≠ [] ∧ ∀ c ∈ v.dumps F, c ≠ '"' ∧ isDelimiter c = false := by
  cases v with
  | str s => exact absurd rfl (h s)
  | float x => exact ⟨F.ne_nil x, F.plain x⟩
  | int n =>
    refine ⟨List.append_ne_nil_of_right_ne_nil _ Nat.toDigits_ne_nil, fun c hc => ?_⟩
    rcases List.mem_append.1 hc with hc | hc
    · split at hc
      · rw [List.mem_singleton.1 hc]
        decide
      · exact absurd hc List.not_mem_nil
    · exact isDelimiter_of_isDigit (Nat.isDigit_of_mem_toDigits (by decide) (by decide) hc)

variable {F}

/-- A field and its separator are the segments. -/
private theorem field_eq_marked {p : Text × CommandValue} (hp : PlainField p) (sep : Char) (rest : List Text) :
    Json.dumpsStr p.1 ++ ':' :: (p.2.dumps F ++ sep :: Scan.marked '"' rest) =
      Scan.marked '"' (fieldSegments F sep p ++ rest) := by
  obtain ⟨k, v⟩ := p
  have hk : Json.dumpsStr k = _ := hp.key.dumpsStr
  cases v with
  | str s =>
    have hs : Json.dumpsStr s = _ := PlainText.dumpsStr hp.value
    simp [fieldSegments, CommandValue.dumps, Scan.marked_cons, hk, hs]
  | int n => simp [fieldSegments, Scan.marked_cons, hk]
  | float x => simp [fieldSegments, Scan.marked_cons, hk]

private theorem object_eq_marked {fields : List (Text × CommandValue)} (hne : fields ≠ [])
    (h : ∀ p ∈ fields, PlainField p) :
    compactFields F fields ++ ['}'] = Scan.marked '"' (objectSegments F fields) := by
  induction fields with
  | nil => exact absurd rfl hne
  | cons p fields ih =>
    have hp := h p List.mem_cons_self
    cases fields with
    | nil =>
      have hmarked := field_eq_marked (F := F) hp '}' []
      rw [List.append_nil, Scan.marked_nil] at hmarked
      rw [compactFields, objectSegments, ← hmarked, List.append_assoc, List.cons_append]
    | cons q fields =>
      have hrest := ih (List.cons_ne_nil q fields) fun p' hp' => h p' (List.mem_cons_of_mem _ hp')
      rw [compactFields, objectSegments, ← field_eq_marked hp, ← hrest]
      simp

/-! ### What is found -/

private theorem field_unquoted {p : Text × CommandValue} (hp : PlainField p) {sep : Char} (hsep : sep ≠ '"') :
    ∀ s ∈ fieldSegments F sep p, '"' ∉ s := by
  obtain ⟨k, v⟩ := p
  have hk : '"' ∉ k := hp.key.not_mem
  have hnumber : (∀ s, v ≠ .str s) → '"' ∉ ':' :: (v.dumps F ++ [sep]) := by
    intro hv hmem
    rcases List.mem_cons.1 hmem with hmem | hmem
    · exact absurd hmem (by decide)
    · rcases List.mem_append.1 hmem with hmem | hmem
      · exact ((CommandValue.number_plain F hv).2 _ hmem).1 rfl
      · exact hsep (List.mem_singleton.1 hmem).symm
  cases v with
  | str s =>
    have hs := PlainText.not_mem hp.value
    simp [fieldSegments, hk, hs, Ne.symm hsep]
  | int n => simpa [fieldSegments, hk] using hnumber fun s h => by cases h
  | float x => simpa [fieldSegments, hk] using hnumber fun s h => by cases h

private theorem object_unquoted {fields : List (Text × CommandValue)} (h : ∀ p ∈ fields, PlainField p) :
    ∀ s ∈ objectSegments F fields, '"' ∉ s := by
  induction fields with
  | nil => exact fun s hs => absurd hs List.not_mem_nil
  | cons p fields ih =>
    obtain ⟨hp, hrest⟩ := List.forall_mem_cons.1 h
    cases fields with
    | nil => exact field_unquoted hp (by decide)
    | cons q fields =>
      intro s hs
      rcases List.mem_append.1 hs with hs | hs
      · exact field_unquoted hp (by decide) s hs
      · exact ih hrest s hs

/-- What comes next is no colon. -/
private def StartsPlain (segments : List Text) : Prop := ∀ s, segments.head? = some s → s.head? ≠ some ':'

private theorem scan_field_of_eq {p : Text × CommandValue} (hp : PlainField p) (sep : Char) (rest : List Text) :
    Scan.scan '"' ':' p.1 (fieldSegments F sep p ++ rest) = some (p.2.dumps F ++ sep :: Scan.marked '"' rest) := by
  obtain ⟨k, v⟩ := p
  cases v with
  | str s =>
    have hs : Json.dumpsStr s = _ := PlainText.dumpsStr hp.value
    refine (Scan.scan_hit [] _).trans ?_
    simp [CommandValue.dumps, hs, Scan.marked_cons]
  | int n =>
    refine (Scan.scan_hit _ _).trans ?_
    simp
  | float x =>
    refine (Scan.scan_hit _ _).trans ?_
    simp

/-- A field with another key is passed over, with its value, unless the colon before the value is taken for a key. -/
private theorem scan_field_of_ne {p : Text × CommandValue} {key : Text} (hkey : p.1 ≠ key)
    (hcolon : key = [':'] → ∀ s, p.2 = .str s → s.head? ≠ some ':') {sep : Char} (hsep : sep ≠ ':')
    {rest : List Text} (hrest : StartsPlain rest) :
    Scan.scan '"' ':' key (fieldSegments F sep p ++ rest) = Scan.scan '"' ':' key rest := by
  obtain ⟨k, v⟩ := p
  have hlast : ∀ s, Scan.scan '"' ':' key (s :: rest) = Scan.scan '"' ':' key rest := fun s =>
    Scan.scan_miss fun _ => hrest
  cases v with
  | str s =>
    show Scan.scan '"' ':' key (k :: [':'] :: s :: [sep] :: rest) = _
    rw [Scan.scan_miss fun heq => absurd heq hkey, Scan.scan_miss, Scan.scan_miss, hlast]
    · rintro - t ht
      cases ht
      simpa using hsep
    · rintro heq t ht
      cases ht
      exact hcolon heq.symm s rfl
  | int n =>
    show Scan.scan '"' ':' key (k :: _ :: rest) = _
    rw [Scan.scan_miss fun heq => absurd heq hkey, hlast]
  | float x =>
    show Scan.scan '"' ':' key (k :: _ :: rest) = _
    rw [Scan.scan_miss fun heq => absurd heq hkey, hlast]

/-- The next field does not begin with a colon. -/
private theorem startsPlain_object {fields : List (Text × CommandValue)} (h : ∀ p ∈ fields, PlainField p) :
    StartsPlain (objectSegments F fields) := by
  have hhead : ∀ (sep : Char) (p : Text × CommandValue), (fieldSegments F sep p).head? = some p.1 := by
    rintro sep ⟨k, v⟩
    cases v <;> rfl
  intro s hs
  match fields with
  | [] => cases hs
  | [p] =>
    rw [objectSegments, hhead] at hs
    cases hs
    exact (h p List.mem_cons_self).head
  | p :: q :: ps =>
    rw [objectSegments, List.head?_append, hhead] at hs
    cases hs
    exact (h p List.mem_cons_self).head

/-- A key is found where it stands as a key; what follows is its value and what delimits it. -/
private theorem scan_object_of_mem {fields : List (Text × CommandValue)} (h : ∀ p ∈ fields, PlainField p)
    (hnodup : (fields.map Prod.fst).Nodup) {p : Text × CommandValue} (hp : p ∈ fields) :
    ∃ sep rest, isDelimiter sep = true ∧
      Scan.scan '"' ':' p.1 (objectSegments F fields) = some (p.2.dumps F ++ sep :: rest) := by
  induction fields with
  | nil => exact absurd hp List.not_mem_nil
  | cons q fields ih =>
    obtain ⟨hq, hrest⟩ := List.forall_mem_cons.1 h
    obtain ⟨hnew, hnodup⟩ := List.nodup_cons.1 hnodup
    rcases List.mem_cons.1 hp with rfl | hp
    · cases fields with
      | nil =>
        have hfound := scan_field_of_eq (F := F) hq '}' []
        rw [List.append_nil] at hfound
        exact ⟨'}', _, rfl, hfound⟩
      | cons r fields => exact ⟨',', _, rfl, scan_field_of_eq hq ',' _⟩
    · have hne : q.1 ≠ p.1 := fun heq => hnew (heq ▸ List.mem_map_of_mem hp)
      have hcolon : p.1 = [':'] → ∀ s, q.2 = .str s → s.head? ≠ some ':' := fun heq =>
        absurd (by rw [heq]; rfl) (hrest p hp).head
      obtain ⟨sep, rest, hsep, hfound⟩ := ih hrest hnodup hp
      refine ⟨sep, rest, hsep, ?_⟩
      cases fields with
      | nil => exact absurd hp List.not_mem_nil
      | cons r fields =>
        rw [objectSegments, scan_field_of_ne hne hcolon (by decide) (startsPlain_object hrest), hfound]

private theorem scan_object_of_not_mem {fields : List (Text × CommandValue)} (h : ∀ p ∈ fields, PlainField p)
    {key : Text} (hkey : key ∉ fields.map Prod.fst)
    (hcolon : key = [':'] → ∀ p ∈ fields, ∀ s, p.2 = .str s → s.head? ≠ some ':') :
    Scan.scan '"' ':' key (objectSegments F fields) = none := by
  induction fields with
  | nil => rfl
  | cons p fields ih =>
    obtain ⟨-, hrest⟩ := List.forall_mem_cons.1 h
    rw [List.map_cons, List.mem_cons, not_or] at hkey
    have hp : key = [':'] → ∀ s, p.2 = .str s → s.head? ≠ some ':' := fun heq =>
      hcolon heq p List.mem_cons_self
    have htail := ih hrest hkey.2 fun heq p' hp' => hcolon heq p' (List.mem_cons_of_mem _ hp')
    cases fields with
    | nil =>
      have hend : StartsPlain [] := fun s hs => by cases hs
      have hskip := scan_field_of_ne (F := F) (Ne.symm hkey.1) hp (show '}' ≠ ':' by decide) hend
      rwa [List.append_nil] at hskip
    | cons q fields =>
      rw [objectSegments, scan_field_of_ne (Ne.symm hkey.1) hp (by decide) (startsPlain_object hrest), htail]

/-- The search in the text is the search in its segments. -/
private theorem after?_dumpsCompact {fields : List (Text × CommandValue)} (hne : fields ≠ [])
    (h : ∀ p ∈ fields, PlainField p) {key : Text} (hkey : '"' ∉ key) :
    Scan.after? (keyNeedle key) (dumpsCompact F fields) = Scan.scan '"' ':' key (objectSegments F fields) := by
  have hbrace : ¬keyNeedle key <+: '{' :: (compactFields F fields ++ ['}']) := fun hprefix =>
    absurd (List.cons_prefix_cons.1 hprefix).1 (by decide)
  rw [dumpsCompact, Scan.after?_cons hbrace, object_eq_marked hne h]
  exact Scan.after?_marked (by decide) hkey (object_unquoted h)

/-! ### What is read -/

/-- A string value is read up to its closing quote. -/
private theorem parseJSONString_of_after {json key s : Text} (hs : PlainText s) {rest : Text}
    (h : Scan.after? (keyNeedle key) json = some ((CommandValue.str s).dumps F ++ rest)) :
    parseJSONString json key = s := by
  have hvalue : (CommandValue.str s).dumps F ++ rest = '"' :: (s ++ '"' :: rest) := by
    rw [CommandValue.dumps, hs.dumpsStr, List.cons_append, List.append_assoc, List.singleton_append]
  have hblank : ('"' :: (s ++ '"' :: rest)).dropWhile (· = ' ') = '"' :: (s ++ '"' :: rest) := rfl
  unfold parseJSONString
  simp only [h, hvalue, hblank, Scan.find?_mark hs.not_mem, List.take_left]

/-- A number is read up to what delimits it. -/
private theorem parseJSONNumber_of_after {json key : Text} {v : CommandValue} (hv : ∀ s, v ≠ .str s) {sep : Char}
    (hsep : isDelimiter sep = true) {rest : Text}
    (h : Scan.after? (keyNeedle key) json = some (v.dumps F ++ sep :: rest)) :
    parseJSONNumber json key = some (v.dumps F) := by
  obtain ⟨hne, hplain⟩ := CommandValue.number_plain F hv
  have hblank : (v.dumps F ++ sep :: rest).dropWhile (· = ' ') = v.dumps F ++ sep :: rest := by
    obtain ⟨c, t, hct⟩ := List.exists_cons_of_ne_nil hne
    have hc : c ≠ ' ' := by
      rintro rfl
      exact absurd (hplain ' ' (hct ▸ List.mem_cons_self)).2 (by decide)
    rw [hct, List.cons_append, List.dropWhile_cons_of_neg (by simpa using hc)]
  have htoken : (v.dumps F ++ sep :: rest).takeWhile (fun c => !isDelimiter c) = v.dumps F := by
    rw [List.takeWhile_append_of_pos fun c hc => by rw [(hplain c hc).2]; rfl,
      List.takeWhile_cons_of_neg (by rw [hsep]; exact Bool.false_ne_true), List.append_nil]
  unfold parseJSONNumber
  rw [h]
  dsimp only
  rw [hblank, htoken, if_neg hne]

/-- The keys of a command are plain and distinct. -/
private theorem keys_plain_nodup (proposalText commandText : ℕ → Text) (c : Command) :
    (∀ key ∈ (c.fields proposalText commandText).map Prod.fst, PlainText key ∧ key.head? ≠ some ':') ∧
      ((c.fields proposalText commandText).map Prod.fst).Nodup := by
  obtain ⟨id, action⟩ := c
  cases action with
  | placeOrder order =>
    simp only [Command.fields, CommandAction.fields, List.map_cons, List.map_append, List.map_nil]
    decide
  | other action => cases action with
    | cancelOrder orderId symbol =>
      simp only [Command.fields, CommandAction.fields, List.map_cons, List.map_append, List.map_nil]
      decide
    | closePosition symbol =>
      simp only [Command.fields, CommandAction.fields, List.map_cons, List.map_append, List.map_nil]
      decide
    | modifyStops orderId symbol stopLoss takeProfit =>
      simp only [Command.fields, CommandAction.fields, List.map_cons, List.map_append, List.map_nil]
      decide

/-- The advisor reads back what the bridge has sent: each string value, each number as it is written; and nothing for
a key that is not in the command, if it has no quote and is not the colon before a value that begins with another. -/
theorem advisor_reads_back (F : FloatRepr) (proposalText commandText : ℕ → Text) (c : Command)
    (hplain : ∀ p ∈ c.fields proposalText commandText, p.2.IsPlain) :
    (∀ key s, (key, .str s) ∈ c.fields proposalText commandText →
        parseJSONString (c.payload F proposalText commandText) key = s) ∧
      (∀ key v, (key, v) ∈ c.fields proposalText commandText → (∀ s, v ≠ .str s) →
        parseJSONNumber (c.payload F proposalText commandText) key = some (v.dumps F) ∧
          ∀ stringToDouble, parseJSONDouble stringToDouble (c.payload F proposalText commandText) key =
            stringToDouble (v.dumps F)) ∧
      ∀ key, key ∉ (c.fields proposalText commandText).map Prod.fst → '"' ∉ key →
        (key = [':'] → ∀ p ∈ c.fields proposalText commandText, ∀ s, p.2 = .str s → s.head? ≠ some ':') →
        parseJSONString (c.payload F proposalText commandText) key = [] ∧
          ∀ stringToDouble, parseJSONDouble stringToDouble (c.payload F proposalText commandText) key = 0 := by
  obtain ⟨hkeys, hnodup⟩ := keys_plain_nodup proposalText commandText c
  have hfields : ∀ p ∈ c.fields proposalText commandText, PlainField p := fun p hp =>
    ⟨(hkeys p.1 (List.mem_map_of_mem hp)).1, (hkeys p.1 (List.mem_map_of_mem hp)).2, hplain p hp⟩
  have hne : c.fields proposalText commandText ≠ [] := List.cons_ne_nil _ _
  have hfound : ∀ p ∈ c.fields proposalText commandText, ∃ sep rest, isDelimiter sep = true ∧
      Scan.after? (keyNeedle p.1) (c.payload F proposalText commandText) = some (p.2.dumps F ++ sep :: rest) := by
    intro p hp
    obtain ⟨sep, rest, hsep, hscan⟩ := scan_object_of_mem (F := F) hfields hnodup hp
    refine ⟨sep, rest, hsep, ?_⟩
    rw [Command.payload, after?_dumpsCompact hne hfields (hfields p hp).key.not_mem, hscan]
  refine ⟨fun key s hp => ?_, fun key v hp hv => ?_, fun key hkey hquote hcolon => ?_⟩
  · obtain ⟨sep, rest, -, hafter⟩ := hfound _ hp
    exact parseJSONString_of_after (hplain _ hp) hafter
  · obtain ⟨sep, rest, hsep, hafter⟩ := hfound _ hp
    have hnumber := parseJSONNumber_of_after hv hsep hafter
    refine ⟨hnumber, fun stringToDouble => ?_⟩
    rw [parseJSONDouble, hnumber]
  · have hnone : Scan.after? (keyNeedle key) (c.payload F proposalText commandText) = none := by
      rw [Command.payload, after?_dumpsCompact hne hfields hquote, scan_object_of_not_mem hfields hkey hcolon]
    refine ⟨?_, fun stringToDouble => ?_⟩
    · rw [parseJSONString, hnone]
    · rw [parseJSONDouble, parseJSONNumber, hnone]

/-- The advisor finds each field of a command whose texts are plain. -/
private theorem after?_payload {proposalText commandText : ℕ → Text} {c : Command}
    (hplain : ∀ p ∈ c.fields proposalText commandText, p.2.IsPlain) {p : Text × CommandValue}
    (hp : p ∈ c.fields proposalText commandText) :
    ∃ sep rest, isDelimiter sep = true ∧
      Scan.after? (keyNeedle p.1) (c.payload F proposalText commandText) = some (p.2.dumps F ++ sep :: rest) := by
  obtain ⟨hkeys, hnodup⟩ := keys_plain_nodup proposalText commandText c
  have hfields : ∀ p ∈ c.fields proposalText commandText, PlainField p := fun p hp =>
    ⟨(hkeys p.1 (List.mem_map_of_mem hp)).1, (hkeys p.1 (List.mem_map_of_mem hp)).2, hplain p hp⟩
  obtain ⟨sep, rest, hsep, hscan⟩ := scan_object_of_mem (F := F) hfields hnodup hp
  have hne : c.fields proposalText commandText ≠ [] := List.cons_ne_nil _ _
  refine ⟨sep, rest, hsep, ?_⟩
  rw [Command.payload, after?_dumpsCompact hne hfields (hfields p hp).key.not_mem, hscan]

theorem parseJSONString_payload {proposalText commandText : ℕ → Text} {c : Command}
    (hplain : ∀ p ∈ c.fields proposalText commandText, p.2.IsPlain) {key s : Text}
    (h : (key, .str s) ∈ c.fields proposalText commandText) :
    parseJSONString (c.payload F proposalText commandText) key = s := by
  obtain ⟨sep, rest, -, hafter⟩ := after?_payload (F := F) hplain h
  exact parseJSONString_of_after (hplain _ h) hafter

theorem parseJSONDouble_payload {proposalText commandText : ℕ → Text} {c : Command}
    (hplain : ∀ p ∈ c.fields proposalText commandText, p.2.IsPlain) {key : Text} {v : CommandValue}
    (hv : ∀ s, v ≠ .str s) (h : (key, v) ∈ c.fields proposalText commandText) (stringToDouble : Text → ℚ) :
    parseJSONDouble stringToDouble (c.payload F proposalText commandText) key = stringToDouble (v.dumps F) := by
  obtain ⟨sep, rest, hsep, hafter⟩ := after?_payload (F := F) hplain h
  rw [parseJSONDouble, parseJSONNumber_of_after hv hsep hafter]

/-- A number of at most two decimals, the way floats are written. -/
def twoPlaces (x : ℚ) : Text :=
  let n := ⌊|x| * 100⌋.natAbs
  (if x < 0 then ['-'] else []) ++ Nat.toDigits 10 (n / 100) ++ '.' :: Nat.toDigits 10 (n / 10 % 10) ++
    if n % 10 = 0 then [] else Nat.toDigits 10 (n % 10)

def twoPlacesRepr : FloatRepr where
  repr := twoPlaces
  ne_nil x := by simp [twoPlaces]
  plain x c hc := by
    have hdigits : ∀ n, c ∈ Nat.toDigits 10 n → c ≠ '"' ∧ isDelimiter c = false := fun n h =>
      isDelimiter_of_isDigit (Nat.isDigit_of_mem_toDigits (by decide) (by decide) h)
    simp only [twoPlaces, List.mem_append, List.mem_cons] at hc
    rcases hc with ((hc | hc) | rfl | hc) | hc
    · split at hc
      · rw [List.mem_singleton.1 hc]
        decide
      · exact absurd hc List.not_mem_nil
    · exact hdigits _ hc
    · decide
    · exact hdigits _ hc
    · split at hc
      · exact absurd hc List.not_mem_nil
      · exact hdigits _ hc

/-- An order of a hundredth of a lot. -/
def smallOrder : Command := ⟨1, .placeOrder ⟨1, "BTCUSD", .buy, 1 / 100, 2 / 100, 4 / 100⟩⟩

def proposalUuid : ℕ → Text := fun _ => "6f9619ff-8b86-4d01-b42d-00cf4fc964ff".toList
def commandUuid : ℕ → Text := fun _ => "0e984725-c51c-4bf4-9960-e1c80e27aba0".toList

theorem smallOrder_plain : ∀ p ∈ smallOrder.fields proposalUuid commandUuid, p.2.IsPlain := by decide

theorem advisor_reads_back_small :
    (∀ p ∈ smallOrder.fields proposalUuid commandUuid, p.2.IsPlain) ∧
      parseJSONString (smallOrder.payload twoPlacesRepr proposalUuid commandUuid) "symbol".toList = "BTCUSD".toList :=
  ⟨smallOrder_plain, (advisor_reads_back twoPlacesRepr proposalUuid commandUuid smallOrder smallOrder_plain).1 _ _
    (List.mem_cons_of_mem _ (List.mem_cons_of_mem _ (List.mem_cons_of_mem _ List.mem_cons_self)))⟩

/-- To the search, a quoted piece of the text is a key, and so is the colon before an order id that is a colon. -/
theorem advisor_finds_absent_key :
    let c : Command := ⟨1, .other (.cancelOrder ":" "BTCUSD")⟩
    (∀ p ∈ c.fields proposalUuid commandUuid, p.2.IsPlain) ∧
      (":".toList ∉ (c.fields proposalUuid commandUuid).map Prod.fst ∧
        parseJSONString (c.payload twoPlacesRepr proposalUuid commandUuid) ":".toList = ",".toList) ∧
      "ok\",\"action".toList ∉ (c.fields proposalUuid commandUuid).map Prod.fst ∧
        parseJSONString (c.payload twoPlacesRepr proposalUuid commandUuid) "ok\",\"action".toList =
          "CANCEL_ORDER".toList := by
  decide +kernel

end MultiAgentTrading.Mt5
