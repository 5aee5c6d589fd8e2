import MultiAgentTrading.Lib.Runs
import MultiAgentTrading.Lib.TextFiles
import MultiAgentTrading.Lib.Writes

/-!
# The model registry

`save_model` writes a model file, two sidecars and a text pointer to the latest base name; `get_latest_path` follows the
pointer and, if it names no model file, scans the directory for the highest version.  A directory maps names to
contents and lists them in some order, which no result depends on.  `str.lower` and `joblib.dump` are parameters.

The invariant is that under each normalised name the versions saved are `1, …, n` and the pointer names the last one
(`Numbered`), so that a lookup finds version `n` whoever saved it (`Holds.getLatestPath_eq`).
-/

namespace MultiAgentTrading

/-- A symbol and a timeframe. -/
structure Pair where
  symbol : Text
  timeframe : Text
  deriving DecidableEq

namespace ModelRegistry

/-- The files of the models directory, by name. -/
abbrev Directory := Dict Text Text

/-! ### Names -/

def isNameChar (c : Char) : Bool := c.isLower || c.isDigit || c = '_'

/-- `re.sub(r"[^a-z0-9_]+", "_", t)`, with whether the last character was replaced. -/
def collapse (replaced : Bool) : Text → Text
  | [] => []
  | c :: t =>
    if isNameChar c then c :: collapse false t
    else if replaced then collapse true t
    else '_' :: collapse true t

def normalise (lower : Text → Text) (pair : Pair) : Text :=
  let sym := (lower pair.symbol).map fun c => if c = '/' then '_' else c
  let sym := ((collapse false sym).dropWhile (· = '_')).rdropWhile (· = '_')
  sym ++ '_' :: lower pair.timeframe

def baseName (stem : Text) (version : ℕ) : Text := stem ++ '_' :: 'v' :: Nat.toDigits 10 version

def modelFile (base : Text) : Text := base ++ ".joblib".toList

def metricsFile (base : Text) : Text := base ++ "_metrics.json".toList

def featuresFile (base : Text) : Text := base ++ "_features.json".toList

def latestPointer (stem : Text) : Text := stem ++ "_latest".toList

/-- The version in a name that matches `^stem_v(\d+)\.joblib$`; the pattern also admits a line feed at the end. -/
def versionOf (stem name : Text) : Option ℕ :=
  let start := stem ++ ['_', 'v']
  let digits := (name.drop start.length).takeWhile Char.isDigit
  let rest := (name.drop start.length).dropWhile Char.isDigit
  if start <+: name ∧ digits ≠ [] ∧ (rest = ".joblib".toList ∨ rest = ".joblib\n".toList) then
    some (Decimal.natOf digits)
  else none

def nextVersion (d : Directory) (stem : Text) : ℕ := ((d.keys.filterMap (versionOf stem)).max?).getD 0 + 1

/-! ### Reading and saving -/

/-- The model file that the pointer names, if it exists. -/
def pointed (d : Directory) (stem : Text) : Option Text :=
  ((d.get? (latestPointer stem)).map fun text => modelFile (TextFiles.readBack text)).filter fun path =>
    d.contains path

/-- The better of the best so far and a further name. -/
def better (stem : Text) (best : Option (ℕ × Text)) (name : Text) : Option (ℕ × Text) :=
  match versionOf stem name, best with
  | none, _ => best
  | some v, none => some (v, name)
  | some v, some b => if b.1 < v then some (v, name) else best

/-- The first name with the highest version. -/
def highest (stem : Text) (names : List Text) : Option (ℕ × Text) := names.foldl (better stem) none

def getLatestPath (lower : Text → Text) (d : Directory) (pair : Pair) : Option Text :=
  let stem := normalise lower pair
  match pointed d stem with
  | some path => some path
  | none => (highest stem d.keys).map Prod.snd

/-- How models and floats become text. -/
structure Formats (M : Type*) where
  joblib : M → Text
  floats : FloatText

/-- The arguments of `save_model` and the time of the call. -/
structure SaveCall (M : Type*) where
  model : M
  metrics : Dict Text Json
  featureNames : List Text
  pair : Pair
  savedAt : Text

variable {M : Type*} (lower : Text → Text) (formats : Formats M)

def fullMetrics (c : SaveCall M) (version : ℕ) : Json :=
  .obj ((((c.metrics.set "symbol".toList (.str c.pair.symbol)).set "timeframe".toList
    (.str c.pair.timeframe)).set "version".toList (.int version)).set "saved_at".toList (.str c.savedAt)).entries

/-- The base name of the model that a call saves. -/
def newBase (d : Directory) (c : SaveCall M) : Text :=
  baseName (normalise lower c.pair) (nextVersion d (normalise lower c.pair))

/-- The model and its sidecars. -/
def modelFiles (d : Directory) (c : SaveCall M) : List (Text × Text) :=
  let version := nextVersion d (normalise lower c.pair)
  let base := newBase lower d c
  [(modelFile base, formats.joblib c.model),
    (metricsFile base, (fullMetrics c version).dumpsIndented formats.floats 0),
    (featuresFile base, (Json.arr (c.featureNames.map .str)).dumpsIndented formats.floats 0)]

/-- The files of a save in the order they are written, the pointer last. -/
def filesOf (d : Directory) (c : SaveCall M) : List (Text × Text) :=
  modelFiles lower formats d c ++ [(latestPointer (normalise lower c.pair), newBase lower d c)]

/-- Names with a slash lie in a directory that does not exist, and a null character ends no name. -/
def storable (stem : Text) : Bool := '/' ∉ stem ∧ Char.ofNat 0 ∉ stem

/-- The directory after the call and the path it returns; `none` if it raises. -/
def saveModel (d : Directory) (c : SaveCall M) : Option (Directory × Text) :=
  if storable (normalise lower c.pair) then
    some (Writes.writeAll d (filesOf lower formats d c), modelFile (newBase lower d c))
  else none

/-! ### Names told apart -/

/-- The last character of a name that the version pattern may match. -/
def EndsLikeModel (name : Text) : Prop := name.getLast? = some 'b' ∨ name.getLast? = some '\n'

private theorem getLast?_append_of_some {l t : Text} {c : Char} (h : t.getLast? = some c) :
    (l ++ t).getLast? = some c := by
  rw [List.getLast?_append, h]
  rfl

private theorem endsLikeModel_modelFile (base : Text) : EndsLikeModel (modelFile base) :=
  .inl (getLast?_append_of_some rfl)

private theorem not_endsLikeModel_sidecar {name base : Text}
    (h : name = metricsFile base ∨ name = featuresFile base ∨ name = latestPointer base) : ¬EndsLikeModel name := by
  rcases h with rfl | rfl | rfl <;> simp [EndsLikeModel, metricsFile, featuresFile, latestPointer]

theorem modelFile_injective {base base' : Text} (h : modelFile base = modelFile base') : base = base' :=
  List.append_cancel_right h

private theorem not_mem_toDigits {c : Char} (hc : c.isDigit = false) (n : ℕ) : c ∉ Nat.toDigits 10 n := fun h =>
  Bool.false_ne_true (hc.symm.trans (TextFiles.isDigit_of_mem_toDigits h))

private theorem baseName_eq (stem : Text) (v : ℕ) :
    baseName stem v = (stem ++ ['_']) ++ 'v' :: Nat.toDigits 10 v := by
  rw [baseName, List.append_assoc]
  rfl

theorem baseName_inj {stem stem' : Text} {v v' : ℕ} (h : baseName stem v = baseName stem' v') :
    stem = stem' ∧ v = v' := by
  rw [baseName_eq, baseName_eq] at h
  obtain ⟨hstem, hdigits⟩ := TextFiles.append_mark_inj (not_mem_toDigits (by decide) v)
    (not_mem_toDigits (by decide) v') h
  exact ⟨List.append_cancel_right hstem, TextFiles.toDigits_injective hdigits⟩

/-- What the version pattern matches. -/
private theorem eq_of_versionOf {stem name : Text} {v : ℕ} (h : versionOf stem name = some v) :
    ∃ digits rest, (∀ c ∈ digits, c.isDigit = true) ∧ Decimal.natOf digits = v ∧
      name = stem ++ ['_', 'v'] ++ digits ++ rest ∧ (rest = ".joblib".toList ∨ rest = ".joblib\n".toList) := by
  simp only [versionOf] at h
  split at h
  case isFalse => cases h
  case isTrue hmatch =>
    obtain ⟨⟨t, rfl⟩, -, hrest⟩ := hmatch
    rw [List.drop_left] at h hrest
    refine ⟨t.takeWhile Char.isDigit, t.dropWhile Char.isDigit, fun c hc => List.mem_takeWhile_imp hc,
      Option.some.inj h, ?_, hrest⟩
    rw [List.append_assoc (stem ++ ['_', 'v']), List.takeWhile_append_dropWhile]

private theorem endsLikeModel_of_versionOf {stem name : Text} {v : ℕ} (h : versionOf stem name = some v) :
    EndsLikeModel name := by
  obtain ⟨digits, rest, -, -, rfl, rfl | rfl⟩ := eq_of_versionOf h
  · exact .inl (getLast?_append_of_some rfl)
  · exact .inr (getLast?_append_of_some rfl)

private theorem versionOf_modelFile_self (stem : Text) (v : ℕ) :
    versionOf stem (modelFile (baseName stem v)) = some v := by
  have hname : modelFile (baseName stem v) = (stem ++ ['_', 'v']) ++ (Nat.toDigits 10 v ++ ".joblib".toList) := by
    simp [modelFile, baseName]
  have hall : ∀ c ∈ Nat.toDigits 10 v, c.isDigit = true := fun c => TextFiles.isDigit_of_mem_toDigits
  have htake : (Nat.toDigits 10 v ++ ".joblib".toList).takeWhile Char.isDigit = Nat.toDigits 10 v := by
    rw [List.takeWhile_append_of_pos hall]
    exact List.append_nil _
  have hdrop : (Nat.toDigits 10 v ++ ".joblib".toList).dropWhile Char.isDigit = ".joblib".toList := by
    rw [List.dropWhile_append_of_pos hall]
    rfl
  simp only [versionOf]
  rw [hname, List.drop_left, htake, hdrop, if_pos ⟨List.prefix_append _ _, Nat.toDigits_ne_nil, .inl rfl⟩]
  exact congrArg some Nat.ofDigitChars_ten_toDigits

/-- A model file has a version under its own stem and under no other. -/
theorem versionOf_modelFile (stem stem' : Text) (v : ℕ) :
    versionOf stem (modelFile (baseName stem' v)) = if stem = stem' then some v else none := by
  split
  case isTrue h => rw [h, versionOf_modelFile_self]
  case isFalse hne =>
    rw [Option.eq_none_iff_forall_ne_some]
    intro w hw
    obtain ⟨digits, rest, hdigits, -, hname, hrest⟩ := eq_of_versionOf hw
    have hend : rest = ".joblib".toList := by
      refine hrest.resolve_right ?_
      rintro rfl
      have hlast := congrArg List.getLast? hname
      rw [getLast?_append_of_some (c := '\n') rfl, modelFile, getLast?_append_of_some (c := 'b') rfl] at hlast
      exact absurd hlast (by decide)
    have hv : 'v' ∉ digits := fun hmem => absurd (hdigits 'v' hmem) (by decide)
    have hbase : (stem' ++ ['_']) ++ 'v' :: Nat.toDigits 10 v = (stem ++ ['_']) ++ 'v' :: digits := by
      refine (List.append_left_inj ".joblib".toList).1 ?_
      rw [← baseName_eq, ← modelFile, hname, hend]
      simp
    exact hne (List.append_cancel_right
      (TextFiles.append_mark_inj (not_mem_toDigits (by decide) v) hv hbase).1).symm

/-! ### What a directory holds -/

/-- The model files have the versions `1, …, n stem` under each stem. -/
def Models (d : Directory) (n : Text → ℕ) : Prop :=
  ∀ name, EndsLikeModel name →
    (name ∈ d.keys ↔ ∃ stem v, (1 ≤ v ∧ v ≤ n stem) ∧ name = modelFile (baseName stem v))

variable {d : Directory} {n : Text → ℕ}

theorem Models.modelFile_mem_iff (h : Models d n) {base : Text} :
    modelFile base ∈ d.keys ↔ ∃ stem v, (1 ≤ v ∧ v ≤ n stem) ∧ base = baseName stem v := by
  rw [h _ (endsLikeModel_modelFile base)]
  constructor
  · rintro ⟨stem, v, hv, hname⟩
    exact ⟨stem, v, hv, modelFile_injective hname⟩
  · rintro ⟨stem, v, hv, rfl⟩
    exact ⟨stem, v, hv, rfl⟩

theorem Models.mem_iff (h : Models d n) {stem : Text} {v : ℕ} :
    modelFile (baseName stem v) ∈ d.keys ↔ 1 ≤ v ∧ v ≤ n stem := by
  rw [h.modelFile_mem_iff]
  constructor
  · rintro ⟨stem', v', hv, hbase⟩
    obtain ⟨rfl, rfl⟩ := baseName_inj hbase
    exact hv
  · exact fun hv => ⟨stem, v, hv, rfl⟩

/-- Only the model files under a stem have a version under it. -/
private theorem Models.versionOf_iff (h : Models d n) {stem name : Text} {v : ℕ} :
    name ∈ d.keys ∧ versionOf stem name = some v ↔ (1 ≤ v ∧ v ≤ n stem) ∧ name = modelFile (baseName stem v) := by
  constructor
  · rintro ⟨hmem, hversion⟩
    obtain ⟨stem', v', hv, rfl⟩ := (h _ (endsLikeModel_of_versionOf hversion)).1 hmem
    rw [versionOf_modelFile] at hversion
    split at hversion
    case isTrue heq =>
      cases hversion
      rw [heq]
      exact ⟨hv, rfl⟩
    case isFalse => cases hversion
  · rintro ⟨hv, rfl⟩
    exact ⟨h.mem_iff.2 hv, by rw [versionOf_modelFile, if_pos rfl]⟩

/-- The next version is one more than the number of versions there are. -/
theorem Models.nextVersion_eq (h : Models d n) (stem : Text) : nextVersion d stem = n stem + 1 := by
  have hmem : ∀ v, v ∈ d.keys.filterMap (versionOf stem) ↔ 1 ≤ v ∧ v ≤ n stem := by
    intro v
    simp only [List.mem_filterMap, h.versionOf_iff, exists_and_left, exists_eq, and_true]
  rw [nextVersion]
  congr 1
  rcases Nat.eq_zero_or_pos (n stem) with hzero | hpos
  · have hnil : d.keys.filterMap (versionOf stem) = [] := by
      refine List.eq_nil_iff_forall_not_mem.2 fun v hv => ?_
      have hbounds := (hmem v).1 hv
      omega
    rw [hnil, hzero]
    rfl
  · have hmax : (d.keys.filterMap (versionOf stem)).max? = some (n stem) :=
      List.max?_eq_some_iff.2 ⟨(hmem _).2 ⟨hpos, le_rfl⟩, fun v hv => ((hmem v).1 hv).2⟩
    rw [hmax]
    rfl

/-- The scan finds a name with the highest version, in whatever order the names come. -/
private theorem highest_spec (stem : Text) (names : List Text) :
    (highest stem names = none → ∀ name ∈ names, versionOf stem name = none) ∧
      ∀ b, highest stem names = some b → b.2 ∈ names ∧ versionOf stem b.2 = some b.1 ∧
        ∀ name ∈ names, ∀ v, versionOf stem name = some v → v ≤ b.1 := by
  induction names using List.reverseRecOn with
  | nil => exact ⟨fun _ name h => (List.not_mem_nil h).elim, fun b hb => by cases hb⟩
  | append_singleton names name ih =>
    obtain ⟨hnone, hsome⟩ := ih
    rw [highest, List.foldl_concat, ← highest]
    simp only [better, List.mem_append, List.mem_singleton]
    cases hversion : versionOf stem name with
    | none => grind
    | some v =>
      cases hbest : highest stem names with
      | none => grind
      | some b => grind

theorem Models.highest_eq (h : Models d n) (stem : Text) :
    highest stem d.keys =
      if n stem = 0 then none else some (n stem, modelFile (baseName stem (n stem))) := by
  obtain ⟨hnone, hsome⟩ := highest_spec stem d.keys
  split
  case isTrue hzero =>
    rw [Option.eq_none_iff_forall_ne_some]
    intro b hb
    have hbounds := (h.versionOf_iff.1 ⟨(hsome b hb).1, (hsome b hb).2.1⟩).1
    omega
  case isFalse hpos =>
    have hlast := h.versionOf_iff.2 ⟨⟨Nat.pos_of_ne_zero hpos, le_rfl⟩, rfl⟩
    cases hbest : highest stem d.keys with
    | none => exact absurd (hnone hbest _ hlast.1) (by rw [hlast.2]; exact Option.some_ne_none _)
    | some b =>
      obtain ⟨hmem, hversion, hmax⟩ := hsome b hbest
      obtain ⟨⟨-, hle⟩, hname⟩ := h.versionOf_iff.1 ⟨hmem, hversion⟩
      have heq : b.1 = n stem := le_antisymm hle (hmax _ hlast.1 _ hlast.2)
      rw [← heq, ← hname]

/-! ### The pointer's text -/

private theorem isBlank_of_isNameChar {c : Char} (h : isNameChar c = true) : Decimal.isBlank c = false := by
  have hrange : (97 ≤ c.toNat ∧ c.toNat ≤ 122) ∨ (48 ≤ c.toNat ∧ c.toNat ≤ 57) ∨ c.toNat = 95 := by
    simp only [isNameChar, Bool.or_eq_true, decide_eq_true_eq] at h
    rcases h with (h | h) | rfl
    · have hlower : (decide (97 ≤ c.val) && decide (c.val ≤ 122)) = true := h
      simp only [Bool.and_eq_true, decide_eq_true_eq, UInt32.le_iff_toNat_le] at hlower
      exact .inl hlower
    · have hdigit : (decide (48 ≤ c.val) && decide (c.val ≤ 57)) = true := h
      simp only [Bool.and_eq_true, decide_eq_true_eq, UInt32.le_iff_toNat_le] at hdigit
      exact .inr (.inl hdigit)
    · exact .inr (.inr rfl)
  simp only [Decimal.isBlank, Bool.or_eq_false_iff, Bool.and_eq_false_iff, decide_eq_false_iff_not]
  omega

private theorem isNameChar_of_mem_collapse {t : Text} {c : Char} {replaced : Bool} (h : c ∈ collapse replaced t) :
    isNameChar c = true := by
  induction t generalizing replaced with
  | nil => cases h
  | cons x t ih =>
    rw [collapse] at h
    split at h
    case isTrue hx =>
      rcases List.mem_cons.1 h with rfl | h
      · exact hx
      · exact ih h
    case isFalse =>
      split at h
      · exact ih h
      · rcases List.mem_cons.1 h with rfl | h
        · rfl
        · exact ih h

/-- A stem begins with a character of a name, and so does what it is read as. -/
private theorem exists_normalise_cons (lower : Text → Text) (pair : Pair) :
    ∃ c t, normalise lower pair = c :: t ∧ Decimal.isBlank c = false := by
  rw [normalise]
  cases hsym : ((collapse false ((lower pair.symbol).map fun c => if c = '/' then '_' else c)).dropWhile
    (· = '_')).rdropWhile (· = '_') with
  | nil => exact ⟨'_', lower pair.timeframe, rfl, rfl⟩
  | cons c t =>
    refine ⟨c, t ++ '_' :: lower pair.timeframe, rfl, isBlank_of_isNameChar ?_⟩
    have hmem : c ∈ c :: t := List.mem_cons_self
    rw [← hsym] at hmem
    have hstripped : ∀ l : Text, l.rdropWhile (· = '_') ⊆ l := fun l => List.IsPrefix.subset <|
      List.rdropWhile_prefix _ l
    exact isNameChar_of_mem_collapse ((List.dropWhile_sublist _).subset (hstripped _ hmem))

private theorem universalNewlines_cons {c : Char} (hc : Decimal.isBlank c = false) (t : Text) :
    TextFiles.universalNewlines (c :: t) = c :: TextFiles.universalNewlines t := by
  have hreturn : c ≠ '\r' := by
    rintro rfl
    cases hc
  have hfeed : c ≠ '\n' := by
    rintro rfl
    cases hc
  simp [TextFiles.universalNewlines, TextFiles.newlinesFrom, hreturn, hfeed]

theorem universalNewlines_baseName (stem : Text) (v : ℕ) :
    TextFiles.universalNewlines (baseName stem v) = baseName (TextFiles.universalNewlines stem) v := by
  have htail : '\r' ∉ '_' :: 'v' :: Nat.toDigits 10 v := by
    simp [not_mem_toDigits (c := '\r') (by decide)]
  rw [baseName, TextFiles.universalNewlines_append (by simp), TextFiles.universalNewlines_of_not_mem htail, baseName]

/-- A base name is read back as it was written, but for the line ends of its timeframe. -/
theorem readBack_baseName (lower : Text → Text) (pair : Pair) (v : ℕ) :
    TextFiles.readBack (baseName (normalise lower pair) v) =
      baseName (TextFiles.universalNewlines (normalise lower pair)) v := by
  obtain ⟨c, t, hstem, hc⟩ := exists_normalise_cons lower pair
  obtain ⟨digits, x, hdigits⟩ := (List.eq_nil_or_concat' (Nat.toDigits 10 v)).resolve_left Nat.toDigits_ne_nil
  have hx : Decimal.isBlank x = false := by
    have hdigit : x.isDigit = true := TextFiles.isDigit_of_mem_toDigits (n := v) (by simp [hdigits])
    exact isBlank_of_isNameChar (by simp [isNameChar, hdigit])
  have hform : baseName (TextFiles.universalNewlines (c :: t)) v =
      c :: ((TextFiles.universalNewlines t ++ '_' :: 'v' :: digits) ++ [x]) := by
    simp [baseName, universalNewlines_cons hc, hdigits]
  rw [TextFiles.readBack, universalNewlines_baseName, hstem, hform, TextFiles.strip_of_not_blank hc hx]

/-- What has been written of a base name is read as a beginning of it. -/
theorem readBack_begins_baseName (lower : Text → Text) (pair : Pair) (v : ℕ) {t : Text}
    (h : t <+: baseName (normalise lower pair) v) :
    TextFiles.readBack t <+: baseName (TextFiles.universalNewlines (normalise lower pair)) v := by
  obtain ⟨c, rest, hstem, hc⟩ := exists_normalise_cons lower pair
  have hcons : baseName (normalise lower pair) v = c :: (rest ++ '_' :: 'v' :: Nat.toDigits 10 v) := by
    rw [hstem]
    rfl
  rw [← universalNewlines_baseName]
  exact TextFiles.readBack_begins hc (by rw [hcons, universalNewlines_cons hc]) h

/-! ### One save -/

/-- One more version under a stem. -/
def bump (n : Text → ℕ) (stem : Text) : Text → ℕ := fun stem' => if stem' = stem then n stem' + 1 else n stem'

theorem le_bump_iff {stem stem' : Text} {v : ℕ} :
    v ≤ bump n stem stem' ↔ v ≤ n stem' ∨ (stem' = stem ∧ v = n stem + 1) := by
  rw [bump]
  split
  case isTrue h =>
    rw [h, and_iff_right rfl]
    omega
  case isFalse h => rw [or_iff_left fun hlast => h hlast.1]

theorem not_endsLikeModel_of_mem_filesOf {c : SaveCall M} {name : Text}
    (h : name ∈ (filesOf lower formats d c).map Prod.fst) (hname : name ≠ modelFile (newBase lower d c)) :
    ¬EndsLikeModel name := by
  simp only [filesOf, modelFiles, List.map_append, List.map_cons, List.map_nil, List.mem_append, List.mem_cons,
    List.not_mem_nil, or_false] at h
  rcases h with (h | h | h) | h
  · exact absurd h hname
  · exact not_endsLikeModel_sidecar (.inl h)
  · exact not_endsLikeModel_sidecar (.inr (.inl h))
  · exact not_endsLikeModel_sidecar (.inr (.inr h))

private theorem metricsFile_ne_featuresFile (base base' : Text) : metricsFile base ≠ featuresFile base' := by
  intro h
  have hends := congrArg (fun t => t.reverse.take 7) h
  simp [metricsFile, featuresFile] at hends

private theorem latestPointer_ne (stem base : Text) :
    latestPointer stem ≠ metricsFile base ∧ latestPointer stem ≠ featuresFile base ∧
      latestPointer stem ≠ modelFile base := by
  refine ⟨fun h => ?_, fun h => ?_, fun h => ?_⟩ <;>
  · have hlast := congrArg List.getLast? h
    simp [latestPointer, metricsFile, featuresFile, modelFile] at hlast

theorem nodup_filesOf (c : SaveCall M) : ((filesOf lower formats d c).map Prod.fst).Nodup := by
  have hmodel : ∀ base, modelFile base ≠ metricsFile base ∧ modelFile base ≠ featuresFile base := fun base =>
    ⟨fun h => not_endsLikeModel_sidecar (.inl h) (endsLikeModel_modelFile base),
      fun h => not_endsLikeModel_sidecar (.inr (.inl h)) (endsLikeModel_modelFile base)⟩
  have hpointer := latestPointer_ne (normalise lower c.pair) (newBase lower d c)
  simp [filesOf, modelFiles, hmodel, metricsFile_ne_featuresFile, hpointer.1.symm, hpointer.2.1.symm,
    hpointer.2.2.symm]

/-- Writing files of which only the new model file can be a model adds that one if it is among them. -/
theorem Models.writeAll (h : Models d n) (stem : Text) (files : List (Text × Text))
    (hfiles : ∀ name ∈ files.map Prod.fst, name ≠ modelFile (baseName stem (n stem + 1)) → ¬EndsLikeModel name) :
    Models (Writes.writeAll d files)
      (if modelFile (baseName stem (n stem + 1)) ∈ files.map Prod.fst then bump n stem else n) := by
  intro name hname
  rw [Writes.mem_keys_writeAll]
  have hwritten : name ∈ files.map Prod.fst → name = modelFile (baseName stem (n stem + 1)) := fun hmem => by
    by_contra hne
    exact hfiles name hmem hne hname
  split
  case isTrue hnew =>
    rw [h name hname]
    constructor
    · rintro (hmem | ⟨stem', v, hv, rfl⟩)
      · exact ⟨stem, n stem + 1, ⟨by omega, le_bump_iff.2 (.inr ⟨rfl, rfl⟩)⟩, hwritten hmem⟩
      · exact ⟨stem', v, ⟨hv.1, le_bump_iff.2 (.inl hv.2)⟩, rfl⟩
    · rintro ⟨stem', v, hv, rfl⟩
      rcases le_bump_iff.1 hv.2 with hle | ⟨rfl, rfl⟩
      · exact .inr ⟨stem', v, ⟨hv.1, hle⟩, rfl⟩
      · exact .inl hnew
  case isFalse hold =>
    rw [h name hname, or_iff_right]
    exact fun hmem => hold (hwritten hmem ▸ hmem)

/-- Model files, sidecars and pointers after saves of `n stem` versions under each stem. -/
structure Holds (d : Directory) (n : Text → ℕ) : Prop where
  models : Models d n
  sidecars : ∀ base, metricsFile base ∈ d.keys ∨ featuresFile base ∈ d.keys → modelFile base ∈ d.keys
  pointers : ∀ stem, d.get? (latestPointer stem) = if n stem = 0 then none else some (baseName stem (n stem))

theorem Holds.newBase_eq (h : Holds d n) (c : SaveCall M) :
    newBase lower d c = baseName (normalise lower c.pair) (n (normalise lower c.pair) + 1) := by
  rw [newBase, h.models.nextVersion_eq]

theorem holds_empty : Holds Dict.empty fun _ => 0 where
  models name _ := by
    have hnone : name ∉ (Dict.empty : Directory).keys := List.not_mem_nil
    refine ⟨fun h => absurd h hnone, ?_⟩
    rintro ⟨stem, v, ⟨hpos, hle⟩, -⟩
    exact absurd (hpos.trans hle) (Nat.not_succ_le_zero 0)
  sidecars base h := by
    rcases h with h | h <;> cases h
  pointers _ := rfl

/-- A save adds one version under the stem of its pair. -/
theorem Holds.save (h : Holds d n) (c : SaveCall M) :
    Holds (Writes.writeAll d (filesOf lower formats d c)) (bump n (normalise lower c.pair)) where
  models := by
    have hnew := h.newBase_eq lower c
    have hmodels := h.models.writeAll (normalise lower c.pair) (filesOf lower formats d c)
      fun name hmem hname => not_endsLikeModel_of_mem_filesOf lower formats hmem (by rwa [hnew])
    rwa [if_pos (by simp [filesOf, modelFiles, hnew])] at hmodels
  sidecars base := by
    intro hside
    rw [Writes.mem_keys_writeAll]
    by_cases hbase : base = newBase lower d c
    · exact .inl (by simp [hbase, filesOf, modelFiles])
    · refine .inr (h.sidecars base ?_)
      have hold : ∀ name, (name = metricsFile base ∨ name = featuresFile base) →
          name ∉ (filesOf lower formats d c).map Prod.fst := by
        rintro name hname hmem
        have hends : ¬EndsLikeModel name := not_endsLikeModel_sidecar (hname.imp id .inl)
        have hpointer := latestPointer_ne (normalise lower c.pair) base
        simp only [filesOf, modelFiles, List.map_append, List.map_cons, List.map_nil, List.mem_append, List.mem_cons,
          List.not_mem_nil, or_false] at hmem
        rcases hmem with (rfl | rfl | rfl) | rfl
        · exact hends (endsLikeModel_modelFile _)
        · rcases hname with hname | hname
          · exact hbase (List.append_cancel_right hname).symm
          · exact metricsFile_ne_featuresFile _ _ hname
        · rcases hname with hname | hname
          · exact metricsFile_ne_featuresFile _ _ hname.symm
          · exact hbase (List.append_cancel_right hname).symm
        · rcases hname with hname | hname
          · exact hpointer.1 hname
          · exact hpointer.2.1 hname
      rcases hside with hside | hside
      · exact .inl ((Writes.mem_keys_writeAll.1 hside).resolve_left (hold _ (.inl rfl)))
      · exact .inr ((Writes.mem_keys_writeAll.1 hside).resolve_left (hold _ (.inr rfl)))
  pointers stem := by
    by_cases hstem : stem = normalise lower c.pair
    · have hmem : (latestPointer stem, newBase lower d c) ∈ filesOf lower formats d c := by
        simp [hstem, filesOf]
      rw [Writes.get?_writeAll_of_mem (nodup_filesOf lower formats c) hmem, h.newBase_eq, ← hstem]
      simp [bump]
    · have hnot : latestPointer stem ∉ (filesOf lower formats d c).map Prod.fst := by
        have hne : latestPointer stem ≠ latestPointer (normalise lower c.pair) := fun he =>
          hstem (List.append_cancel_right he)
        simp [filesOf, modelFiles, latestPointer_ne, hne]
      rw [Writes.get?_writeAll_of_not_mem hnot, h.pointers stem, bump, if_neg hstem]

/-! ### What a lookup finds -/

/-- What the pointer names, by the text it holds. -/
theorem pointed_of_text {stem text : Text} (h : d.get? (latestPointer stem) = some text) :
    pointed d stem =
      if modelFile (TextFiles.readBack text) ∈ d.keys then some (modelFile (TextFiles.readBack text)) else none := by
  rw [pointed, h, Option.map_some, Option.filter_some]
  simp only [Dict.contains_iff]

theorem pointed_of_none {stem : Text} (h : d.get? (latestPointer stem) = none) : pointed d stem = none := by
  rw [pointed, h]
  rfl

theorem Holds.pointed_eq (h : Holds d n) (pair : Pair) :
    pointed d (normalise lower pair) =
      if 0 < n (normalise lower pair) ∧
          n (normalise lower pair) ≤ n (TextFiles.universalNewlines (normalise lower pair)) then
        some (modelFile (baseName (TextFiles.universalNewlines (normalise lower pair)) (n (normalise lower pair))))
      else none := by
  have hpointer := h.pointers (normalise lower pair)
  rcases Nat.eq_zero_or_pos (n (normalise lower pair)) with hzero | hpos
  · rw [if_pos hzero] at hpointer
    rw [pointed_of_none hpointer, if_neg (by omega)]
  · rw [if_neg (by omega)] at hpointer
    rw [pointed_of_text hpointer, readBack_baseName]
    simp only [h.models.mem_iff, Nat.one_le_iff_ne_zero, Nat.pos_iff_ne_zero]

/-- Without a pointer that names a model, the scan finds the last version under the stem. -/
theorem getLatestPath_of_scan (h : Models d n) {pair : Pair} (hpointed : pointed d (normalise lower pair) = none) :
    getLatestPath lower d pair =
      if n (normalise lower pair) = 0 then none
      else some (modelFile (baseName (normalise lower pair) (n (normalise lower pair)))) := by
  simp only [getLatestPath, hpointed, h.highest_eq]
  split
  · rfl
  · rfl

theorem getLatestPath_of_pointed {pair : Pair} {path : Text} (h : pointed d (normalise lower pair) = some path) :
    getLatestPath lower d pair = some path := by
  simp only [getLatestPath, h]

/-- The stem under which the model of a pair is found after `n` saves under each. -/
def foundStem (n : Text → ℕ) (stem : Text) : Text :=
  if n stem ≤ n (TextFiles.universalNewlines stem) then TextFiles.universalNewlines stem else stem

/-- A lookup finds the last version, if there is one; its stem is another one only by the line ends of a timeframe. -/
theorem Holds.getLatestPath_eq (h : Holds d n) (pair : Pair) :
    getLatestPath lower d pair =
      if n (normalise lower pair) = 0 then none
      else some (modelFile (baseName (foundStem n (normalise lower pair)) (n (normalise lower pair)))) := by
  have hpointed := h.pointed_eq lower pair
  rw [foundStem]
  by_cases hfound : 0 < n (normalise lower pair) ∧
    n (normalise lower pair) ≤ n (TextFiles.universalNewlines (normalise lower pair))
  · rw [if_pos hfound] at hpointed
    rw [getLatestPath_of_pointed lower hpointed, if_neg (by omega), if_pos hfound.2]
  · rw [if_neg hfound] at hpointed
    rw [getLatestPath_of_scan lower h.models hpointed]
    split
    · rfl
    · rw [if_neg (by omega)]

/-! ### Runs of saves -/

/-- The directory and the completed calls with the paths they returned, oldest first. -/
structure Registry (M : Type*) where
  directory : Directory
  saved : List (SaveCall M × Text)

def Registry.new : Registry M := ⟨Dict.empty, []⟩

/-- The saves under a stem, oldest first. -/
def Registry.under (s : Registry M) (stem : Text) : List (SaveCall M × Text) :=
  s.saved.filter fun x => normalise lower x.1.pair = stem

def step (s : Registry M) (c : SaveCall M) : Option (Registry M) :=
  (saveModel lower formats s.directory c).map fun r => ⟨r.1, s.saved ++ [(c, r.2)]⟩

/-- The number of saves under each stem. -/
def count (calls : List (SaveCall M)) (stem : Text) : ℕ := calls.countP fun c => normalise lower c.pair = stem

theorem count_concat (calls : List (SaveCall M)) (c : SaveCall M) :
    count lower (calls ++ [c]) = bump (count lower calls) (normalise lower c.pair) := by
  funext stem
  rw [count, List.countP_append, bump, ← count]
  by_cases h : stem = normalise lower c.pair
  · rw [if_pos h]
    simp [h]
  · rw [if_neg h]
    simp [Ne.symm h]

/-- The saves under each stem are numbered from one on, and the directory holds what they wrote. -/
structure Numbered (s : Registry M) : Prop where
  holds : Holds s.directory (count lower (s.saved.map Prod.fst))
  paths : ∀ stem, (s.under lower stem).map Prod.snd =
    (List.range' 1 (count lower (s.saved.map Prod.fst) stem)).map fun v => modelFile (baseName stem v)

theorem step_cases {s s' : Registry M} {c : SaveCall M} (h : step lower formats s c = some s') :
    s' = ⟨Writes.writeAll s.directory (filesOf lower formats s.directory c),
      s.saved ++ [(c, modelFile (newBase lower s.directory c))]⟩ := by
  obtain ⟨r, hsave, rfl⟩ := Option.map_eq_some_iff.1 h
  rw [saveModel] at hsave
  split at hsave
  · cases hsave
    rfl
  · cases hsave

theorem Numbered.step {s s' : Registry M} {c : SaveCall M} (hs : Numbered lower s)
    (h : step lower formats s c = some s') : Numbered lower s' := by
  rw [step_cases lower formats h]
  have hcount : count lower ((s.saved ++ [(c, modelFile (newBase lower s.directory c))]).map Prod.fst) =
      bump (count lower (s.saved.map Prod.fst)) (normalise lower c.pair) := by
    rw [List.map_append]
    exact count_concat lower _ c
  refine ⟨?_, fun stem => ?_⟩
  · rw [hcount]
    exact hs.holds.save lower formats c
  · rw [hcount, Registry.under, List.filter_append, List.map_append, ← Registry.under, hs.paths stem, bump]
    by_cases hstem : stem = normalise lower c.pair
    · rw [if_pos hstem, List.range'_concat, List.map_append, hs.holds.newBase_eq]
      simp [hstem, Nat.add_comm]
    · rw [if_neg hstem]
      simp [Ne.symm hstem]

theorem numbered_new : Numbered lower (Registry.new : Registry M) := ⟨holds_empty, fun _ => rfl⟩

/-- After every run of saves the versions are numbered. -/
theorem numbered_run {calls : List (SaveCall M)} {s : Registry M}
    (h : Runs.exec (step lower formats) Registry.new calls = some s) : Numbered lower s :=
  Runs.exec_invariant (Numbered lower) (fun _ _ _ hs hstep => hs.step lower formats hstep) (numbered_new lower) h

/-- The calls that a run records are its calls. -/
theorem calls_run {calls : List (SaveCall M)} {s t : Registry M}
    (h : Runs.exec (step lower formats) s calls = some t) :
    t.saved.map Prod.fst = s.saved.map Prod.fst ++ calls := by
  induction calls generalizing s with
  | nil =>
    cases h
    exact (List.append_nil _).symm
  | cons c calls ih =>
    obtain ⟨s', hstep, hrest⟩ := Runs.exec_cons.1 h
    rw [ih hrest, step_cases lower formats hstep, List.map_append, List.append_assoc]
    rfl

end ModelRegistry

end MultiAgentTrading
