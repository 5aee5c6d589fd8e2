import MultiAgentTrading.Lib.Decimal
import MultiAgentTrading.Lib.Dict

/-!
# JSON text

`dumps` writes a value the way the default encoder does, with `", "` and `": "` between the parts and everything
outside printable ASCII escaped; `dumpsIndented` gives every part a line of its own; `loads` reads a text, strictly,
the last of several equal keys winning.  How floats are read and written is a parameter.  `Reads v` says that `v` is
read back from its text, whatever follows it; it holds of every string, and of an object if it holds of its fields.
-/

/-- A text, as the characters it has. -/
abbrev Text := List Char

/-- A JSON value; a float stands as its exact decimal value. -/
inductive Json
  | null
  | bool (b : Bool)
  | int (n : ℤ)
  | float (value : Decimal)
  | str (s : Text)
  | arr (items : List Json)
  | obj (fields : List (Text × Json))

/-- What a float literal is read as, and how a float is written. -/
structure FloatText where
  value : Text → Decimal
  repr : Decimal → Text

/-- Floats read and written like decimal numbers. -/
def FloatText.decimal : FloatText := ⟨fun t => (Decimal.parse t).getD (.nan false false 0), Decimal.toText⟩

namespace Json

/-! ### Writing -/

/-- Four hexadecimal digits. -/
def hex4 (n : ℕ) : Text :=
  [(n / 4096 % 16).digitChar, (n / 256 % 16).digitChar, (n / 16 % 16).digitChar, (n % 16).digitChar]

def escapeUnit (n : ℕ) : Text := '\\' :: 'u' :: hex4 n

/-- One character of a string: itself, a short escape, or one or two code units. -/
def escapeChar (c : Char) : Text :=
  let n := c.toNat
  if c = '"' then ['\\', '"']
  else if c = '\\' then ['\\', '\\']
  else if c = '\n' then ['\\', 'n']
  else if c = '\r' then ['\\', 'r']
  else if c = '\t' then ['\\', 't']
  else if n = 0x08 then ['\\', 'b']
  else if n = 0x0c then ['\\', 'f']
  else if 0x20 ≤ n ∧ n ≤ 0x7e then [c]
  else if n < 0x10000 then escapeUnit n
  else escapeUnit (0xd800 + (n - 0x10000) / 0x400) ++ escapeUnit (0xdc00 + (n - 0x10000) % 0x400)

def dumpsStr (s : Text) : Text := '"' :: (s.flatMap escapeChar ++ ['"'])

def dumpsInt (n : ℤ) : Text := (if n < 0 then ['-'] else []) ++ Nat.toDigits 10 n.natAbs

mutual

def dumps (F : FloatText) : Json → Text
  | .null => ['n', 'u', 'l', 'l']
  | .bool true => ['t', 'r', 'u', 'e']
  | .bool false => ['f', 'a', 'l', 's', 'e']
  | .int n => dumpsInt n
  | .float value => F.repr value
  | .str s => dumpsStr s
  | .arr items => '[' :: (dumpsItems F items ++ [']'])
  | .obj fields => '{' :: (dumpsFields F fields ++ ['}'])

def dumpsItems (F : FloatText) : List Json → Text
  | [] => []
  | [v] => dumps F v
  | v :: w :: vs => dumps F v ++ ',' :: ' ' :: dumpsItems F (w :: vs)

def dumpsFields (F : FloatText) : List (Text × Json) → Text
  | [] => []
  | [(k, v)] => dumpsStr k ++ ':' :: ' ' :: dumps F v
  | (k, v) :: p :: ps => dumpsStr k ++ ':' :: ' ' :: (dumps F v ++ ',' :: ' ' :: dumpsFields F (p :: ps))

end

/-- A line break and two blanks for each level. -/
def newLine (level : ℕ) : Text := '\n' :: List.replicate (2 * level) ' '

mutual

/-- `dumps` with every item and field on a line of its own. -/
def dumpsIndented (F : FloatText) (level : ℕ) : Json → Text
  | .arr items =>
    if items.isEmpty then ['[', ']']
    else '[' :: (newLine (level + 1) ++ indentedItems F (level + 1) items ++ newLine level ++ [']'])
  | .obj fields =>
    if fields.isEmpty then ['{', '}']
    else '{' :: (newLine (level + 1) ++ indentedFields F (level + 1) fields ++ newLine level ++ ['}'])
  | v => dumps F v

def indentedItems (F : FloatText) (level : ℕ) : List Json → Text
  | [] => []
  | [v] => dumpsIndented F level v
  | v :: w :: vs => dumpsIndented F level v ++ ',' :: (newLine level ++ indentedItems F level (w :: vs))

def indentedFields (F : FloatText) (level : ℕ) : List (Text × Json) → Text
  | [] => []
  | [(k, v)] => dumpsStr k ++ ':' :: ' ' :: dumpsIndented F level v
  | (k, v) :: p :: ps =>
    dumpsStr k ++ ':' :: ' ' :: (dumpsIndented F level v ++ ',' :: (newLine level ++ indentedFields F level (p :: ps)))

end

/-! ### Reading -/

def isSpace (c : Char) : Bool := c = ' ' ∨ c = '\t' ∨ c = '\n' ∨ c = '\r'

def skip (t : Text) : Text := t.dropWhile isSpace

def hexVal (c : Char) : Option ℕ :=
  if c.isDigit then some (c.toNat - 48)
  else if 'a' ≤ c ∧ c ≤ 'f' then some (c.toNat - 87)
  else if 'A' ≤ c ∧ c ≤ 'F' then some (c.toNat - 55)
  else none

/-- A code unit after `\u`. -/
def readUnit : Text → Option (ℕ × Text)
  | a :: b :: c :: d :: t =>
    match hexVal a, hexVal b, hexVal c, hexVal d with
    | some a, some b, some c, some d => some (4096 * a + 256 * b + 16 * c + d, t)
    | _, _, _, _ => none
  | _ => none

def isHighSurrogate (n : ℕ) : Bool := 0xd800 ≤ n ∧ n < 0xdc00
def isLowSurrogate (n : ℕ) : Bool := 0xdc00 ≤ n ∧ n < 0xe000

/-- The second half of a surrogate pair. -/
def readLow (high : ℕ) : Text → Option (Char × Text)
  | '\\' :: 'u' :: t =>
    (readUnit t).bind fun low =>
      if isLowSurrogate low.1 then some (Char.ofNat (0x10000 + (high - 0xd800) * 0x400 + (low.1 - 0xdc00)), low.2)
      else none
  | _ => none

/-- The character of a code unit.  Half a surrogate pair is none. -/
def ofUnit (n : ℕ) (t : Text) : Option (Char × Text) :=
  if isHighSurrogate n then readLow n t else if isLowSurrogate n then none else some (Char.ofNat n, t)

/-- An escape after the backslash. -/
def readEscape : Text → Option (Char × Text)
  | '"' :: t => some ('"', t)
  | '\\' :: t => some ('\\', t)
  | '/' :: t => some ('/', t)
  | 'b' :: t => some (Char.ofNat 0x08, t)
  | 'f' :: t => some (Char.ofNat 0x0c, t)
  | 'n' :: t => some ('\n', t)
  | 'r' :: t => some ('\r', t)
  | 't' :: t => some ('\t', t)
  | 'u' :: t => (readUnit t).bind fun unit => ofUnit unit.1 unit.2
  | _ => none

/-- A string after its opening quote.  The number bounds the characters read; the length of the text is enough. -/
def readString : ℕ → Text → Option (Text × Text)
  | n + 1, c :: t =>
    if c = '"' then some ([], t)
    else if c = '\\' then (readEscape t).bind fun e => (readString n e.2).map fun r => (e.1 :: r.1, r.2)
    else if c.toNat < 0x20 then none
    else (readString n t).map fun r => (c :: r.1, r.2)
  | _, _ => none

/-- The digits after a point, with the point; nothing if there is no digit. -/
def readFraction : Text → Text × Text
  | '.' :: t =>
    if t.takeWhile Char.isDigit = [] then ([], '.' :: t)
    else ('.' :: t.takeWhile Char.isDigit, t.dropWhile Char.isDigit)
  | t => ([], t)

/-- An exponent with its letter and sign; nothing if there is no digit. -/
def readExponent (t : Text) : Text × Text :=
  let marked : Text × Text :=
    match t with
    | c :: '-' :: t => if c = 'e' ∨ c = 'E' then ([c, '-'], t) else ([], [])
    | c :: '+' :: t => if c = 'e' ∨ c = 'E' then ([c, '+'], t) else ([], [])
    | c :: t => if c = 'e' ∨ c = 'E' then ([c], t) else ([], [])
    | [] => ([], [])
  if marked.2.takeWhile Char.isDigit = [] then ([], t)
  else (marked.1 ++ marked.2.takeWhile Char.isDigit, marked.2.dropWhile Char.isDigit)

/-- A number: an integer, or a float if it has a fraction or an exponent. -/
def readNumber (F : FloatText) (t : Text) : Option (Json × Text) :=
  let negative := t.head? = some '-'
  let unsigned := if negative then t.tail else t
  let digits := unsigned.takeWhile Char.isDigit
  let int := if digits.head? = some '0' then ['0'] else digits
  let frac := readFraction (unsigned.drop int.length)
  let exponent := readExponent frac.2
  if int = [] then none
  else if frac.1 = [] ∧ exponent.1 = [] then
    some (.int (if negative then -(Decimal.natOf int : ℤ) else Decimal.natOf int), exponent.2)
  else some (.float (F.value ((if negative then ['-'] else []) ++ int ++ frac.1 ++ exponent.1)), exponent.2)

/-- The items of an array, and its end. -/
def readItems (read : Text → Option (Json × Text)) : ℕ → Text → Option (List Json × Text)
  | 0, _ => none
  | n + 1, t =>
    (read t).bind fun v =>
      match skip v.2 with
      | ']' :: t => some ([v.1], t)
      | ',' :: t => (readItems read n (skip t)).map fun r => (v.1 :: r.1, r.2)
      | _ => none

/-- The value of a field after its key. -/
def readField (read : Text → Option (Json × Text)) (t : Text) : Option (Json × Text) :=
  match skip t with
  | ':' :: t => read (skip t)
  | _ => none

/-- The fields of an object, and its end. -/
def readFields (read : Text → Option (Json × Text)) : ℕ → Text → Option (List (Text × Json) × Text)
  | n + 1, '"' :: t =>
    (readString n t).bind fun k =>
      (readField read k.2).bind fun v =>
        match skip v.2 with
        | '}' :: t => some ([(k.1, v.1)], t)
        | ',' :: t => (readFields read n (skip t)).map fun r => ((k.1, v.1) :: r.1, r.2)
        | _ => none
  | _, _ => none

def readValue (F : FloatText) : ℕ → Text → Option (Json × Text)
  | n + 1, '"' :: t => (readString n t).map fun r => (.str r.1, r.2)
  | n + 1, '{' :: t =>
    match skip t with
    | '}' :: t => some (.obj [], t)
    | t => (readFields (readValue F n) n t).map fun r => (.obj (Dict.ofList r.1).entries, r.2)
  | n + 1, '[' :: t =>
    match skip t with
    | ']' :: t => some (.arr [], t)
    | t => (readItems (readValue F n) n t).map fun r => (.arr r.1, r.2)
  | _ + 1, 'n' :: 'u' :: 'l' :: 'l' :: t => some (.null, t)
  | _ + 1, 't' :: 'r' :: 'u' :: 'e' :: t => some (.bool true, t)
  | _ + 1, 'f' :: 'a' :: 'l' :: 's' :: 'e' :: t => some (.bool false, t)
  | _ + 1, 'N' :: 'a' :: 'N' :: t => some (.float (.nan false false 0), t)
  | _ + 1, 'I' :: 'n' :: 'f' :: 'i' :: 'n' :: 'i' :: 't' :: 'y' :: t => some (.float (.infinity false), t)
  | _ + 1, '-' :: 'I' :: 'n' :: 'f' :: 'i' :: 'n' :: 'i' :: 't' :: 'y' :: t => some (.float (.infinity true), t)
  | _ + 1, t => readNumber F t
  | 0, _ => none

/-- Read a whole text: one value, with blanks around it. -/
def loads (F : FloatText) (t : Text) : Option Json :=
  (readValue F (t.length + 1) (skip t)).bind fun r => if skip r.2 = [] then some r.1 else none

/-! ### Access -/

/-- The value of a key, none if this is no object or has no such key. -/
def get? (k : Text) : Json → Option Json
  | .obj fields => (fields.find? fun p => p.1 = k).map Prod.snd
  | _ => none

/-- What Python takes for true. -/
def truthy : Json → Bool
  | .null => false
  | .bool b => b
  | .int n => n ≠ 0
  | .float (.finite _ n _) => n ≠ 0
  | .float _ => true
  | .str s => !s.isEmpty
  | .arr items => !items.isEmpty
  | .obj fields => !fields.isEmpty

/-- An integer; a truth value is one too. -/
def asInt : Json → Option ℤ
  | .int n => some n
  | .bool b => some (if b then 1 else 0)
  | _ => none

private def asDigit (v : Json) : Option ℕ := (asInt v).bind fun n => if 0 ≤ n ∧ n ≤ 9 then some n.toNat else none

/-- A decimal number from its sign, digits and exponent. -/
def tupleToDecimal (sign : Json) (digits : List Json) (exponent : Json) : Option Decimal :=
  match asInt sign, digits.mapM asDigit with
  | some sign, some digits =>
    let coefficient := digits.foldl (fun n d => 10 * n + d) 0
    if sign ≠ 0 ∧ sign ≠ 1 then none
    else
      match exponent with
      | .str ['F'] => some (.infinity (decide (sign = 1)))
      | .str ['n'] => some (.nan (decide (sign = 1)) false coefficient)
      | .str ['N'] => some (.nan (decide (sign = 1)) true coefficient)
      | e => (asInt e).map (.finite (decide (sign = 1)) coefficient)
  | _, _ => none

/-- The decimal number made of a value: of a number exactly, of a string by reading it, or of three parts. -/
def toDecimal : Json → Option Decimal
  | .str s => Decimal.parse s
  | .int n => some (.finite (decide (n < 0)) n.natAbs 0)
  | .bool b => some (.finite false b.toNat 0)
  | .float value => some value
  | .arr [sign, .arr digits, exponent] => tupleToDecimal sign digits exponent
  | _ => none

/-! ### The round trip -/

private theorem hexVal_digitChar {d : ℕ} (h : d < 16) : hexVal d.digitChar = some d := by
  have hall : ∀ d < 16, hexVal d.digitChar = some d := by decide
  exact hall d h

private theorem readUnit_hex4 {n : ℕ} (h : n < 0x10000) (t : Text) : readUnit (hex4 n ++ t) = some (n, t) := by
  have hdigit : ∀ m, hexVal (m % 16).digitChar = some (m % 16) := fun m => hexVal_digitChar (Nat.mod_lt _ (by decide))
  simp only [hex4, List.cons_append, List.nil_append, readUnit, hdigit, Option.some.injEq, Prod.mk.injEq, and_true]
  omega

theorem readString_escape {n : ℕ} {c : Char} {e t : Text} (h : readEscape (e ++ t) = some (c, t)) :
    readString (n + 1) ('\\' :: e ++ t) = (readString n t).map fun r => (c :: r.1, r.2) := by
  show (readEscape (e ++ t)).bind _ = _
  rw [h, Option.bind_some]

theorem readString_plain {n : ℕ} {c : Char} {t : Text} (hquote : c ≠ '"') (hbackslash : c ≠ '\\')
    (hcontrol : ¬ c.toNat < 0x20) : readString (n + 1) (c :: t) = (readString n t).map fun r => (c :: r.1, r.2) := by
  rw [readString, if_neg hquote, if_neg hbackslash, if_neg hcontrol]

private theorem eq_ofNat {c : Char} {n : ℕ} (h : c.toNat = n) : Char.ofNat n = c := by
  rw [← h, Char.ofNat_toNat]

private theorem readEscape_unit {c : Char} (h : c.toNat < 0x10000) (t : Text) :
    readEscape ('u' :: hex4 c.toNat ++ t) = some (c, t) := by
  have hvalid : c.toNat < 0xd800 ∨ 0xdfff < c.toNat ∧ c.toNat < 0x110000 := c.valid
  have hhigh : ¬ isHighSurrogate c.toNat = true := by
    simp only [isHighSurrogate, decide_eq_true_eq]
    omega
  have hlow : ¬ isLowSurrogate c.toNat = true := by
    simp only [isLowSurrogate, decide_eq_true_eq]
    omega
  show (readUnit (hex4 c.toNat ++ t)).bind _ = _
  rw [readUnit_hex4 h, Option.bind_some, ofUnit, if_neg hhigh, if_neg hlow, Char.ofNat_toNat]

/-- A character outside the basic plane is read back from its two code units. -/
private theorem readEscape_surrogates {c : Char} (h : 0x10000 ≤ c.toNat) (t : Text) :
    readEscape ('u' :: hex4 (0xd800 + (c.toNat - 0x10000) / 0x400) ++
      escapeUnit (0xdc00 + (c.toNat - 0x10000) % 0x400) ++ t) = some (c, t) := by
  have hvalid : c.toNat < 0xd800 ∨ 0xdfff < c.toNat ∧ c.toNat < 0x110000 := c.valid
  have hhigh : isHighSurrogate (0xd800 + (c.toNat - 0x10000) / 0x400) = true := by
    simp only [isHighSurrogate, decide_eq_true_eq]
    omega
  have hlow : isLowSurrogate (0xdc00 + (c.toNat - 0x10000) % 0x400) = true := by
    simp only [isLowSurrogate, decide_eq_true_eq]
    omega
  show (readUnit (hex4 _ ++ _)).bind _ = _
  rw [readUnit_hex4 (by omega), Option.bind_some, ofUnit, if_pos hhigh]
  show (readUnit (hex4 _ ++ t)).bind _ = _
  rw [readUnit_hex4 (by omega), Option.bind_some, if_pos hlow]
  exact congrArg (fun c => some (c, t)) (eq_ofNat (by omega))

/-- A printable character that has no escape is written as itself. -/
theorem escapeChar_of_printable {c : Char} (hquote : c ≠ '"') (hbackslash : c ≠ '\\') (hlow : 0x20 ≤ c.toNat)
    (hhigh : c.toNat ≤ 0x7e) : escapeChar c = [c] := by
  have hcontrol : ∀ d : Char, d.toNat < 0x20 → c ≠ d := fun d hd heq => absurd (heq ▸ hd) (not_lt.2 hlow)
  unfold escapeChar
  dsimp only
  rw [if_neg hquote, if_neg hbackslash, if_neg (hcontrol '\n' (by decide)), if_neg (hcontrol '\r' (by decide)),
    if_neg (hcontrol '\t' (by decide)), if_neg (by omega), if_neg (by omega), if_pos ⟨hlow, hhigh⟩]

/-- A character is written as itself, or as an escape that stands for it. -/
private theorem escapeChar_cases (c : Char) :
    (c ≠ '"' ∧ c ≠ '\\' ∧ ¬ c.toNat < 0x20 ∧ escapeChar c = [c]) ∨
      ∃ e, escapeChar c = '\\' :: e ∧ ∀ t, readEscape (e ++ t) = some (c, t) := by
  unfold escapeChar
  dsimp only
  by_cases hquote : c = '"'
  · exact .inr ⟨['"'], if_pos hquote, fun t => by rw [hquote]; rfl⟩
  rw [if_neg hquote]
  by_cases hbackslash : c = '\\'
  · exact .inr ⟨['\\'], if_pos hbackslash, fun t => by rw [hbackslash]; rfl⟩
  rw [if_neg hbackslash]
  by_cases hnewline : c = '\n'
  · exact .inr ⟨['n'], if_pos hnewline, fun t => by rw [hnewline]; rfl⟩
  rw [if_neg hnewline]
  by_cases hreturn : c = '\r'
  · exact .inr ⟨['r'], if_pos hreturn, fun t => by rw [hreturn]; rfl⟩
  rw [if_neg hreturn]
  by_cases htab : c = '\t'
  · exact .inr ⟨['t'], if_pos htab, fun t => by rw [htab]; rfl⟩
  rw [if_neg htab]
  by_cases hback : c.toNat = 0x08
  · exact .inr ⟨['b'], if_pos hback, fun t => by rw [← eq_ofNat hback]; rfl⟩
  rw [if_neg hback]
  by_cases hfeed : c.toNat = 0x0c
  · exact .inr ⟨['f'], if_pos hfeed, fun t => by rw [← eq_ofNat hfeed]; rfl⟩
  rw [if_neg hfeed]
  by_cases hplain : 0x20 ≤ c.toNat ∧ c.toNat ≤ 0x7e
  · exact .inl ⟨hquote, hbackslash, by omega, if_pos hplain⟩
  rw [if_neg hplain]
  by_cases hunit : c.toNat < 0x10000
  · exact .inr ⟨_, if_pos hunit, readEscape_unit hunit⟩
  · exact .inr ⟨_, if_neg hunit, readEscape_surrogates (not_lt.1 hunit)⟩

/-- A character is read back from its escape. -/
private theorem readString_escapeChar (n : ℕ) (c : Char) (t : Text) :
    readString (n + 1) (escapeChar c ++ t) = (readString n t).map fun r => (c :: r.1, r.2) := by
  rcases escapeChar_cases c with ⟨hquote, hbackslash, hcontrol, hself⟩ | ⟨e, hescape, hread⟩
  · rw [hself]
    exact readString_plain hquote hbackslash hcontrol
  · rw [hescape]
    exact readString_escape (hread t)

theorem readString_dumps {n : ℕ} {s : Text} (h : s.length < n) (t : Text) :
    readString n (s.flatMap escapeChar ++ '"' :: t) = some (s, t) := by
  induction s generalizing n with
  | nil =>
    cases n with
    | zero => exact absurd h (Nat.not_lt_zero _)
    | succ n => rfl
  | cons c s ih =>
    cases n with
    | zero => exact absurd h (Nat.not_lt_zero _)
    | succ n =>
      rw [List.flatMap_cons, List.append_assoc, readString_escapeChar, ih (Nat.lt_of_succ_lt_succ h)]
      rfl

/-- A character is written as at least one. -/
private theorem length_le_flatMap (s : Text) : s.length ≤ (s.flatMap escapeChar).length := by
  induction s with
  | nil => exact Nat.zero_le _
  | cons c s ih =>
    have hc : 0 < (escapeChar c).length := by
      rcases escapeChar_cases c with ⟨-, -, -, hself⟩ | ⟨e, hescape, -⟩
      · rw [hself]
        exact Nat.one_pos
      · rw [hescape]
        exact Nat.succ_pos _
    rw [List.flatMap_cons, List.length_append, List.length_cons]
    omega

variable {F : FloatText}

/-- A value is read back from its text, whatever follows it, by a reader that may go as deep as the text is long. -/
def Reads (F : FloatText) (v : Json) : Prop :=
  ∀ n rest, (dumps F v).length ≤ n → readValue F (n + 1) (skip (dumps F v ++ rest)) = some (v, rest)

theorem reads_str (s : Text) : Reads F (.str s) := by
  intro n rest hn
  rw [dumps, dumpsStr, List.length_cons, List.length_append] at hn
  have hs := length_le_flatMap s
  show (readString n (s.flatMap escapeChar ++ ['"'] ++ rest)).map _ = _
  rw [List.append_assoc]
  show (readString n (s.flatMap escapeChar ++ '"' :: rest)).map _ = _
  rw [readString_dumps (by omega)]
  rfl

/-- A field is read back if its value is, and what follows it decides how to go on. -/
private theorem readFields_field {m n : ℕ} {k : Text} {v : Json} (hk : k.length < n) (hv : Reads F v)
    (hm : (dumps F v).length ≤ m) (rest : Text) :
    readFields (readValue F (m + 1)) (n + 1) (skip (dumpsStr k ++ ':' :: ' ' :: (dumps F v ++ rest))) =
      match skip rest with
      | '}' :: t => some ([(k, v)], t)
      | ',' :: t => (readFields (readValue F (m + 1)) n (skip t)).map fun r => ((k, v) :: r.1, r.2)
      | _ => none := by
  have hkey : readString n (k.flatMap escapeChar ++ ['"'] ++ ':' :: ' ' :: (dumps F v ++ rest)) =
      some (k, ':' :: ' ' :: (dumps F v ++ rest)) := by
    rw [List.append_assoc]
    exact readString_dumps hk _
  have hvalue : readField (readValue F (m + 1)) (':' :: ' ' :: (dumps F v ++ rest)) = some (v, rest) := hv m rest hm
  show (readString n (k.flatMap escapeChar ++ ['"'] ++ ':' :: ' ' :: (dumps F v ++ rest))).bind _ = _
  rw [hkey, Option.bind_some, hvalue]
  rfl

/-- The fields of an object are read back if their values are. -/
private theorem readFields_dumps {m : ℕ} {fields : List (Text × Json)} (hne : fields ≠ [])
    (hreads : ∀ p ∈ fields, Reads F p.2) (hm : (dumpsFields F fields).length ≤ m) {n : ℕ}
    (hn : (dumpsFields F fields).length ≤ n) (rest : Text) :
    readFields (readValue F (m + 1)) (n + 1) (skip (dumpsFields F fields ++ '}' :: rest)) = some (fields, rest) := by
  induction fields generalizing n with
  | nil => exact absurd rfl hne
  | cons p fields ih =>
    obtain ⟨k, v⟩ := p
    have hk := length_le_flatMap k
    have hv : Reads F v := hreads (k, v) List.mem_cons_self
    cases fields with
    | nil =>
      simp only [dumpsFields, dumpsStr, List.length_append, List.length_cons, List.length_nil] at hm hn
      rw [dumpsFields, List.append_assoc, List.cons_append, List.cons_append,
        readFields_field (by omega) hv (by omega)]
      rfl
    | cons q fields =>
      have hfields : ∀ p ∈ q :: fields, Reads F p.2 := fun p hp => hreads p (List.mem_cons_of_mem _ hp)
      rw [dumpsFields, dumpsStr] at hm hn
      simp only [List.length_append, List.length_cons, List.length_nil] at hm hn
      rw [dumpsFields]
      simp only [List.append_assoc, List.cons_append]
      rw [readFields_field (by omega) hv (by omega)]
      obtain ⟨n, rfl⟩ : ∃ n', n = n' + 1 := ⟨n - 1, by omega⟩
      have hrest := ih (List.cons_ne_nil q fields) hfields (by omega) (n := n) (by omega)
      show (readFields (readValue F (m + 1)) (n + 1) (skip (dumpsFields F (q :: fields) ++ '}' :: rest))).map _ = _
      rw [hrest]
      rfl

private theorem dumpsFields_cons (p : Text × Json) (fields : List (Text × Json)) :
    ∃ t, dumpsFields F (p :: fields) = '"' :: t := by
  cases fields with
  | nil => exact ⟨_, rfl⟩
  | cons q fields => exact ⟨_, rfl⟩

/-- An object is read back if its fields are and its keys are distinct. -/
theorem reads_obj {fields : List (Text × Json)} (hnodup : (fields.map Prod.fst).Nodup)
    (hreads : ∀ p ∈ fields, Reads F p.2) : Reads F (.obj fields) := by
  intro n rest hn
  rw [dumps] at hn
  rw [List.length_cons, List.length_append, List.length_singleton] at hn
  obtain ⟨m, rfl⟩ : ∃ m, n = m + 1 := ⟨n - 1, by omega⟩
  cases fields with
  | nil => rfl
  | cons p fields =>
    have hread := readFields_dumps (List.cons_ne_nil p fields) hreads (m := m) (by omega) (n := m) (by omega) rest
    obtain ⟨t, ht⟩ := dumpsFields_cons (F := F) p fields
    rw [dumps, List.cons_append, List.append_assoc, List.singleton_append]
    rw [ht] at hread ⊢
    show (readFields (readValue F (m + 1)) (m + 1) (skip ('"' :: t ++ '}' :: rest))).map _ = _
    rw [hread, Option.map_some, Dict.entries_ofList hnodup]

/-! ### Fields, one at a time -/

section Fields

variable {read : Text → Option (Json × Text)} {n : ℕ} {k t rest : Text} {v : Json}

private theorem readFields_key (hk : k.length < n) :
    readFields read (n + 1) (dumpsStr k ++ ':' :: t) = (read (skip t)).bind fun v =>
      match skip v.2 with
      | '}' :: t => some ([(k, v.1)], t)
      | ',' :: t => (readFields read n (skip t)).map fun r => ((k, v.1) :: r.1, r.2)
      | _ => none := by
  show (readString n (k.flatMap escapeChar ++ ['"'] ++ ':' :: t)).bind _ = _
  rw [List.append_assoc]
  show (readString n (k.flatMap escapeChar ++ '"' :: ':' :: t)).bind _ = _
  rw [readString_dumps hk]
  rfl

/-- A field that another one follows. -/
theorem readFields_comma (hk : k.length < n) (hv : read (skip t) = some (v, ',' :: rest)) :
    readFields read (n + 1) (dumpsStr k ++ ':' :: t) =
      (readFields read n (skip rest)).map fun r => ((k, v) :: r.1, r.2) := by
  rw [readFields_key hk, hv]
  rfl

theorem readFields_last (hk : k.length < n) (hv : read (skip t) = some (v, '}' :: rest)) :
    readFields read (n + 1) (dumpsStr k ++ ':' :: t) = some ([(k, v)], rest) := by
  rw [readFields_key hk, hv]
  rfl

/-- A field whose value cannot be read. -/
theorem readFields_none (hk : k.length < n) (hv : read (skip t) = none) :
    readFields read (n + 1) (dumpsStr k ++ ':' :: t) = none := by
  rw [readFields_key hk, hv]
  rfl

end Fields

/-! ### Integers -/

/-- No positive number is written with a leading zero. -/
theorem head?_toDigits {n : ℕ} (h : 0 < n) : (Nat.toDigits 10 n).head? ≠ some '0' := by
  induction n using Nat.strongRecOn with
  | ind n ih =>
    by_cases hlt : n < 10
    · have hdigit : ∀ d < 10, 0 < d → d.digitChar ≠ '0' := by decide
      rw [Nat.toDigits_of_lt_base hlt, List.head?_cons, ne_eq, Option.some.injEq]
      exact hdigit n hlt h
    · have hhead := ih (n / 10) (by omega) (by omega)
      have hne : Nat.toDigits 10 (n / 10) ≠ [] := Nat.toDigits_ne_nil
      rw [Nat.toDigits_of_base_le (by decide) (by omega), List.head?_append_of_ne_nil _ hne]
      exact hhead

/-- What may follow an integer. -/
def EndsInt (rest : Text) : Prop := ∀ c ∈ rest.head?, c.isDigit = false ∧ c ≠ '.' ∧ c ≠ 'e' ∧ c ≠ 'E'

private theorem readExponent_of_endsInt {rest : Text} (h : EndsInt rest) : readExponent rest = ([], rest) := by
  cases rest with
  | nil => rfl
  | cons c t =>
    obtain ⟨-, -, he, hE⟩ := h c rfl
    have hno : ¬(c = 'e' ∨ c = 'E') := fun hc => hc.elim he hE
    unfold readExponent
    split
    case h_1 heq => cases heq; simp only [if_neg hno, List.takeWhile_nil, if_true]
    case h_2 heq => cases heq; simp only [if_neg hno, List.takeWhile_nil, if_true]
    case h_3 heq => cases heq; simp only [if_neg hno, List.takeWhile_nil, if_true]
    case h_4 heq => cases heq

private theorem readFraction_of_endsInt {rest : Text} (h : EndsInt rest) : readFraction rest = ([], rest) := by
  unfold readFraction
  split
  · exact absurd rfl (h '.' rfl).2.1
  · rfl

/-- The digits of an unsigned integer, and what is left of the text. -/
private theorem digits_of_endsInt {n : ℕ} {rest : Text} (h : EndsInt rest) :
    (Nat.toDigits 10 n ++ rest).takeWhile Char.isDigit = Nat.toDigits 10 n := by
  have hall : ∀ c ∈ Nat.toDigits 10 n, c.isDigit = true := fun c hc =>
    Nat.isDigit_of_mem_toDigits (by decide) (by decide) hc
  have hrest : rest.takeWhile Char.isDigit = [] := by
    cases rest with
    | nil => rfl
    | cons c t => exact List.takeWhile_cons_of_neg (by rw [(h c rfl).1]; exact Bool.false_ne_true)
  rw [List.takeWhile_append_of_pos hall, hrest, List.append_nil]

/-- A sign, digits, and what ends them. -/
private theorem readNumber_digits {t : Text} {n : ℕ} {rest : Text} (h : EndsInt rest)
    (ht : (if t.head? = some '-' then t.tail else t) = Nat.toDigits 10 n ++ rest) :
    readNumber F t = some (.int (if t.head? = some '-' then -(n : ℤ) else n), rest) := by
  have hint : (if (Nat.toDigits 10 n).head? = some '0' then ['0'] else Nat.toDigits 10 n) = Nat.toDigits 10 n := by
    rcases Nat.eq_zero_or_pos n with rfl | hpos
    · rfl
    · rw [if_neg (head?_toDigits hpos)]
  have hvalue : Decimal.natOf (Nat.toDigits 10 n) = n := Nat.ofDigitChars_ten_toDigits
  unfold readNumber
  simp only [ht, digits_of_endsInt h, hint, List.drop_left, readFraction_of_endsInt h,
    readExponent_of_endsInt h, hvalue]
  rw [if_neg Nat.toDigits_ne_nil, if_pos ⟨trivial, trivial⟩]

private theorem head?_dumpsInt (k : ℤ) (rest : Text) :
    ∃ c t, dumpsInt k ++ rest = c :: t ∧ (c = '-' ∧ k < 0 ∧ t = Nat.toDigits 10 k.natAbs ++ rest ∨
      c.isDigit = true ∧ 0 ≤ k ∧ c :: t = Nat.toDigits 10 k.natAbs ++ rest) := by
  by_cases hk : k < 0
  · exact ⟨'-', _, by rw [dumpsInt, if_pos hk]; rfl, .inl ⟨rfl, hk, rfl⟩⟩
  · obtain ⟨c, t, hct⟩ := List.exists_cons_of_ne_nil (Nat.toDigits_ne_nil (n := k.natAbs) (b := 10))
    have hc : c.isDigit = true :=
      Nat.isDigit_of_mem_toDigits (b := 10) (n := k.natAbs) (by decide) (by decide) (hct ▸ List.mem_cons_self)
    refine ⟨c, t ++ rest, ?_, .inr ⟨hc, not_lt.1 hk, by rw [hct, List.cons_append]⟩⟩
    rw [dumpsInt, if_neg hk, List.nil_append, hct, List.cons_append]

/-- An integer is read up to what ends it. -/
theorem readNumber_dumpsInt {k : ℤ} {rest : Text} (h : EndsInt rest) :
    readNumber F (dumpsInt k ++ rest) = some (.int k, rest) := by
  obtain ⟨c, t, hct, ⟨rfl, hk, rfl⟩ | ⟨hc, hk, ht⟩⟩ := head?_dumpsInt k rest
  · rw [hct, readNumber_digits (n := k.natAbs) h (if_pos rfl), List.head?_cons, if_pos rfl]
    congr 3
    omega
  · have hminus : (c :: t).head? ≠ some '-' := by
      rw [List.head?_cons, ne_eq, Option.some.injEq]
      rintro rfl
      exact absurd hc (by decide)
    rw [hct, readNumber_digits h ((if_neg hminus).trans ht), if_neg hminus]
    congr 3
    omega

/-- What begins like an integer is read as a number. -/
private theorem readValue_of_number {n : ℕ} {c : Char} {t : Text}
    (hc : c = '-' ∧ t.head? ≠ some 'I' ∨ c.isDigit = true) : readValue F (n + 1) (c :: t) = readNumber F (c :: t) := by
  have hletter : ∀ d : Char, d.isDigit = false → d ≠ '-' → c ≠ d := by
    rintro d hd hminus rfl
    rcases hc with ⟨rfl, -⟩ | hc
    · exact hminus rfl
    · exact Bool.false_ne_true (hd.symm.trans hc)
  unfold readValue
  split
  case h_9 heq =>
    -- `-Infinity`
    cases heq
    rcases hc with ⟨-, hc⟩ | hc
    · exact absurd rfl hc
    · exact absurd hc (by decide)
  case h_10 => rfl
  case h_11 heq => cases heq
  all_goals
    rename_i heq
    injection heq with hhead htail
    exact absurd hhead (hletter _ (by decide) (by decide))

/-- A number has no blank in front of it. -/
theorem readValue_skip_of_number {n : ℕ} {c : Char} {t : Text}
    (hc : c = '-' ∧ t.head? ≠ some 'I' ∨ c.isDigit = true) :
    readValue F (n + 1) (skip (c :: t)) = readNumber F (c :: t) := by
  have hspace : isSpace c = false := by
    rcases hc with ⟨rfl, -⟩ | hc
    · decide
    · have hne : ∀ d : Char, d.isDigit = false → c ≠ d := fun d hd heq => Bool.false_ne_true (hd.symm.trans (heq ▸ hc))
      simp [isSpace, hne]
  rw [skip, List.dropWhile_cons_of_neg (by rw [hspace]; exact Bool.false_ne_true), readValue_of_number hc]

theorem readValue_dumpsInt {n : ℕ} {k : ℤ} {rest : Text} (h : EndsInt rest) :
    readValue F (n + 1) (skip (dumpsInt k ++ rest)) = some (.int k, rest) := by
  rw [← readNumber_dumpsInt (F := F) (k := k) h]
  obtain ⟨c, t, hct, hhead⟩ := head?_dumpsInt k rest
  have hnumber : c = '-' ∧ t.head? ≠ some 'I' ∨ c.isDigit = true := by
    rcases hhead with ⟨rfl, -, rfl⟩ | ⟨hc, -, -⟩
    · obtain ⟨d, u, hdu⟩ := List.exists_cons_of_ne_nil (Nat.toDigits_ne_nil (n := k.natAbs) (b := 10))
      have hd : d.isDigit = true :=
        Nat.isDigit_of_mem_toDigits (b := 10) (n := k.natAbs) (by decide) (by decide) (hdu ▸ List.mem_cons_self)
      refine .inl ⟨rfl, ?_⟩
      rw [hdu, List.cons_append, List.head?_cons, ne_eq, Option.some.injEq]
      rintro rfl
      exact absurd hd (by decide)
    · exact .inr hc
  rw [hct, readValue_skip_of_number hnumber]

/-- What is read back is what was written. -/
theorem Reads.loads_dumps {v : Json} (h : Reads F v) : loads F (dumps F v) = some v := by
  have hread := h (dumps F v).length [] le_rfl
  rw [List.append_nil] at hread
  rw [loads, hread]
  rfl

example : loads .decimal " [1, -0, \"\\u00e9\\n\", null] ".toList =
    some (.arr [.int 1, .int 0, .str [Char.ofNat 0xe9, '\n'], .null]) := by rfl
example : (loads .decimal "[01]".toList).isNone := by decide

end Json
