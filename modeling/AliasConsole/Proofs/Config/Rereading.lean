import AliasConsole.Proofs.Config.Precedence
import AliasConsole.Proofs.Text.Pieces
import AliasConsole.Proofs.Value.Digits
import Mathlib.Algebra.Group.Int.Defs
import Mathlib.Algebra.Group.Nat.Defs

/-!
# Reading a configuration again

Every field that is read has a valid value: a height is positive, a log level is one of
the five, a prompt shows something and a module name consists of identifiers.  What a
field was set to can be put into words for the environment, and the field reads these
words as the same value again.  Only the path of the log file depends on more than its
words.
-/

namespace AliasConsole.Config

variable {s : Surroundings} {room : ℕ} {v : Value} {f : Field} {t : Text}

/-- The text consists of identifiers with points between them. -/
def IsModuleName (t : Text) : Prop :=
  ∃ parts : List Text, parts ≠ [] ∧ (∀ part ∈ parts, isIdentifier part = true) ∧
    t = Text.joined ['.'] parts

namespace Field

/-- The values that are valid for a field. -/
def Admits : (f : Field) → f.Setting → Prop
  | pluginPackage => fun name : Text => IsModuleName name
  | logLevel => fun level : Option Text => ∀ name ∈ level, name ∈ logLevels
  | height => fun n : Int => 1 ≤ n
  | prompt => fun t : Text => ∃ c ∈ t, isBlank c = false
  | logFile | banner | showBanner | enableCompletion => fun _ => True

/-- What a field is set to, as a value. -/
def value : (f : Field) → f.Setting → Value
  | pluginPackage | prompt | banner => fun t : Text => .text t
  | logFile | logLevel => fun word : Option Text => word.elim .null .text
  | height => fun n : Int => .int n
  | showBanner | enableCompletion => fun b : Bool => .bool b

/-- What a field is set to, in words, which take no room. -/
def spell (f : Field) (a : f.Setting) : Except Fault Text := (f.value a).spell 0

end Field

/-! ## Texts and words for nothing -/

/-- Whether a text says that there is nothing. -/
def saysNothing (t : Text) : Bool :=
  (Text.lower (Text.trim t)).isEmpty || Text.lower (Text.trim t) = "none".toList

theorem optionalText_text (t : Text) :
    optionalText room (.text t) = .ok (if saysNothing t then none else some t) := by
  rw [optionalText, Value.spell_text]
  · rfl
  · nofun

/-- A text that was not taken for nothing is not taken for nothing when it is read again. -/
theorem saysNothing_of_optionalText (h : optionalText room v = .ok (some t)) :
    saysNothing t = false := by
  rw [optionalText.eq_def] at h
  split at h
  · cases h
  · obtain ⟨word, -, h⟩ := exists_of_bind_eq_ok h
    have hword : (if saysNothing word then none else some word) = some t := Except.ok.inj h
    split_ifs at hword with hnothing
    obtain rfl := Option.some.inj hword
    exact eq_false_of_ne_true hnothing

theorem exists_not_blank (h : saysNothing t = false) : ∃ c ∈ t, isBlank c = false := by
  by_contra hblank
  push Not at hblank
  rw [saysNothing, trim_of_blank fun c hc => by simpa using hblank c hc] at h
  cases h

/-! ## What is read is valid and can be read again -/

theorem natAbs_lt_pow_iff {n : Int} (hn : 0 ≤ n) {k : Nat} :
    n.natAbs < 10 ^ k ↔ n < 10 ^ k := by
  rw [← Int.ofNat_lt, Int.natCast_pow, Int.natAbs_of_nonneg hn]
  rfl

theorem readHeightNumber_text {n : Int} (h : Decimal.readInteger (Text.trim t) = .ok n) :
    readHeightNumber room (.text t) = .ok n := by
  rw [readHeightNumber, Value.spell_text]
  · simp only [bind, Except.bind, h]
  · nofun
  · nofun

theorem readHeight_of_pos {n : Int} (hn : 1 ≤ n) (h : (Value.int n).spell 0 = .ok t) :
    readHeight room (.text t) = .ok n := by
  obtain ⟨hlength, rfl⟩ := Value.spell_int_eq_ok_iff.mp h
  obtain ⟨m, rfl⟩ := Int.eq_ofNat_of_zero_le (by omega : 0 ≤ n)
  rw [Int.natAbs_natCast] at hlength
  have hwords : Text.ofInt m = Text.ofNat m := if_neg (by omega)
  have htrim : Text.trim (Text.ofNat m) = Text.ofNat m := without_of_forall fun c hc =>
    isBlank_of_isDigit (Nat.isDigit_of_mem_toDigits (by decide) (by decide) hc)
  have hnumber : Decimal.readInteger (Text.trim (Text.ofNat m)) = .ok (m : Int) := by
    rw [htrim, Decimal.readInteger_ofNat hlength]
  rw [hwords, readHeight, readHeightNumber_text hnumber]
  exact if_neg (by omega)

theorem pos_of_readHeight {n : Int} (h : readHeight room v = .ok n) : 1 ≤ n := by
  rw [readHeight] at h
  obtain ⟨m, -, h⟩ := exists_of_bind_eq_ok h
  split_ifs at h with hlt
  obtain rfl := Except.ok.inj h
  omega

theorem readModuleName_eq {name : Text} (h : readModuleName room v = .ok name) :
    IsModuleName name ∧ ∀ room', readModuleName room' (.text name) = .ok name := by
  rw [readModuleName] at h
  obtain ⟨word, -, h⟩ := exists_of_bind_eq_ok h
  dsimp only at h
  split_ifs at h with hparts
  obtain rfl : Text.trim word = name := Except.ok.inj h
  obtain ⟨hne, hjoined, -⟩ := joined_pieces '.' (Text.trim word)
  refine ⟨⟨_, hne, List.all_eq_true.mp hparts, hjoined.symm⟩, fun room' => ?_⟩
  rw [readModuleName, Value.spell_text]
  change (if (Text.pieces '.' (Text.trim (Text.trim word))).all isIdentifier then _ else _) = _
  rw [trim_trim, if_pos hparts]
  rfl

theorem mem_logLevels_of_readLogLevel {level : Option Text} (h : readLogLevel room v = .ok level) :
    ∀ name ∈ level, name ∈ logLevels := by
  rw [readLogLevel] at h
  obtain ⟨word, -, h⟩ := exists_of_bind_eq_ok h
  split at h
  · obtain rfl := Except.ok.inj h
    exact fun name hname => absurd hname (Option.not_mem_none name)
  · dsimp only at h
    split_ifs at h with hlevel
    obtain rfl := Except.ok.inj h
    intro name hname
    obtain rfl := Option.some.inj hname
    simpa using hlevel

theorem readLogLevel_of_mem {name : Text} (h : name ∈ logLevels) :
    readLogLevel room (.text name) = .ok (some name) := by
  simp only [logLevels, List.mem_cons, List.not_mem_nil, or_false] at h
  rcases h with rfl | rfl | rfl | rfl | rfl <;> rfl

theorem readPrompt_eq (h : readPrompt room v = .ok t) :
    (∃ c ∈ t, isBlank c = false) ∧ ∀ room', readPrompt room' (.text t) = .ok t := by
  rw [readPrompt] at h
  obtain ⟨word, hword, h⟩ := exists_of_bind_eq_ok h
  obtain rfl : word.getD defaultPrompt = t := Except.ok.inj h
  have hshown : saysNothing (word.getD defaultPrompt) = false := by
    cases word with
    | none => rfl
    | some text => exact saysNothing_of_optionalText hword
  refine ⟨exists_not_blank hshown, fun room' => ?_⟩
  rw [readPrompt, optionalText_text, if_neg (by simp [hshown])]
  rfl

theorem readBool_boolText (b : Bool) : readBool room (.text (Value.boolText b)) = .ok b := by
  cases b <;> rfl

section Fields

variable {a : f.Setting}

theorem admits_of_read (h : f.read s v = .ok a) : f.Admits a := by
  cases f with
  | pluginPackage => exact (readModuleName_eq h).1
  | logLevel => exact mem_logLevels_of_readLogLevel h
  | height => exact pos_of_readHeight h
  | prompt => exact (readPrompt_eq h).1
  | logFile | banner | showBanner | enableCompletion => trivial

theorem exists_read_default (s : Surroundings) (f : Field) :
    ∃ v, f.read s v = .ok (defaults.get f) := by
  cases f with
  | pluginPackage => exact ⟨.text "plugins".toList, rfl⟩
  | logFile => exact ⟨.null, rfl⟩
  | logLevel => exact ⟨.null, rfl⟩
  | height => exact ⟨.int 10, rfl⟩
  | prompt => exact ⟨.null, rfl⟩
  | banner => exact ⟨.text defaults.banner, rfl⟩
  | showBanner => exact ⟨.bool true, rfl⟩
  | enableCompletion => exact ⟨.bool true, rfl⟩

/-- A field reads the words for a value that it has read as this value again. -/
theorem read_spell (hf : f ≠ .logFile) (h : f.read s v = .ok a) (hspell : f.spell a = .ok t)
    (s' : Surroundings) : f.read s' (.text t) = .ok a := by
  have htext : ∀ {u : Text}, (Value.text u).spell 0 = .ok t → u = t := fun {u} hu =>
    Except.ok.inj ((Value.spell_text u).symm.trans hu)
  cases f with
  | pluginPackage =>
      obtain rfl := htext hspell
      exact (readModuleName_eq h).2 _
  | logFile => exact absurd rfl hf
  | logLevel =>
      cases a with
      | none =>
          obtain rfl : "None".toList = t := Except.ok.inj hspell
          rfl
      | some name =>
          obtain rfl : name = t := htext hspell
          exact readLogLevel_of_mem (mem_logLevels_of_readLogLevel h name rfl)
  | height => exact readHeight_of_pos (pos_of_readHeight h) hspell
  | prompt =>
      obtain rfl := htext hspell
      exact (readPrompt_eq h).2 _
  | banner =>
      obtain rfl := htext hspell
      rfl
  | showBanner | enableCompletion =>
      obtain rfl : Value.boolText a = t := Except.ok.inj hspell
      exact readBool_boolText a

end Fields

/-! ## Loading again -/

section Loading

variable {environment : Environment} {source : Option (List Nat)} {c : Config}
  (hload : load s environment source = .ok c)

include hload

theorem exists_read_of_load (f : Field) : ∃ v, f.read s v = .ok (c.get f) := by
  obtain ⟨document, hread, -⟩ := exists_of_bind_eq_ok hload
  have hmade := isMadeOf_of_load hread hload
  cases hgiven : f.given? environment document with
  | some v => exact ⟨v, hmade.given f v hgiven⟩
  | none =>
      rw [hmade.default f hgiven]
      exact exists_read_default s f

/-- There are words for what a field is set to, unless it is a height of too many digits. -/
theorem exists_spell (f : Field)
    (hheight : f = .height → c.height < 10 ^ Decimal.maxIntegerDigits) :
    ∃ t, f.spell (c.get f) = .ok t := by
  have hword : ∀ word : Option Text, ∃ t, (word.elim Value.null .text).spell 0 = .ok t := by
    intro word
    cases word with
    | none => exact ⟨"None".toList, rfl⟩
    | some t => exact ⟨t, Value.spell_text t⟩
  cases f with
  | pluginPackage | prompt | banner => exact ⟨_, Value.spell_text _⟩
  | logFile | logLevel => exact hword _
  | height =>
      obtain ⟨v, hread⟩ := exists_read_of_load hload .height
      have hpos : 1 ≤ c.height := pos_of_readHeight hread
      have hlt := (natAbs_lt_pow_iff (by omega)).mpr (hheight rfl)
      have hlength := (Nat.length_toDigits_le_iff (by decide) (by decide)).mpr hlt
      exact ⟨_, Value.spell_int_eq_ok_iff.mpr ⟨hlength, rfl⟩⟩
  | showBanner | enableCompletion => exact ⟨Value.boolText _, rfl⟩

theorem read_words (hf : f ≠ .logFile) (hspell : f.spell (c.get f) = .ok t)
    (s' : Surroundings) : f.read s' (.text t) = .ok (c.get f) := by
  obtain ⟨v, hread⟩ := exists_read_of_load hload f
  exact read_spell hf hread hspell s'

/-- An environment that has the words for some fields, and besides them at most a path that
can be expanded, can be loaded, and it sets these fields to what they were. -/
theorem exists_load_of_words {s' : Surroundings} {environment' : Environment}
    (hwords : ∀ (f : Field) t, f ≠ .logFile → environment'.lookup f.variableName = some t →
      f.spell (c.get f) = .ok t)
    (hpath : ∀ path, environment'.lookup Field.logFile.variableName = some path →
      ∃ full, Field.logFile.read s' (.text path) = .ok full) :
    ∃ c', load s' environment' none = .ok c' ∧
      ∀ (f : Field) t, f ≠ .logFile → environment'.lookup f.variableName = some t →
        c'.get f = c.get f := by
  have hnothing : readDocument s'.reading none = .ok [] := rfl
  have hgiven : ∀ f : Field, f.given? environment' [] =
      (environment'.lookup f.variableName).map .text := fun f => Option.or_none
  cases hagain : load s' environment' none with
  | error fault =>
      obtain ⟨f, v, hv, hfault⟩ := isRejected_of_load hnothing hagain
      rw [hgiven, Option.map_eq_some_iff] at hv
      obtain ⟨t, ht, rfl⟩ := hv
      by_cases hf : f = .logFile
      · subst hf
        obtain ⟨full, hfull⟩ := hpath t ht
        exact absurd (hfull.symm.trans hfault) nofun
      · rw [read_words hload hf (hwords f t hf ht)] at hfault
        cases hfault
  | ok c' =>
      refine ⟨c', rfl, fun f t hf ht => ?_⟩
      have hv : f.given? environment' [] = some (.text t) := by
        rw [hgiven, ht]
        rfl
      have hown := (isMadeOf_of_load hnothing hagain).given f _ hv
      rw [read_words hload hf (hwords f t hf ht)] at hown
      exact (Except.ok.inj hown).symm

end Loading

/-- Every field of a loaded configuration has a valid value, and there are words for it
unless it is a height of too many digits.  If the environment has these words for some
fields, loading again without a document sets these fields to the same values. -/
theorem load_rereads {environment : Environment} {source : Option (List Nat)} {c : Config}
    (hload : load s environment source = .ok c) :
    (∀ f : Field, f.Admits (c.get f)) ∧
      (∀ f : Field, (f = .height → c.height < 10 ^ Decimal.maxIntegerDigits) →
        ∃ t, f.spell (c.get f) = .ok t) ∧
      ∀ s' environment',
        (∀ (f : Field) t, f ≠ .logFile → environment'.lookup f.variableName = some t →
          f.spell (c.get f) = .ok t) →
        (∀ path, environment'.lookup Field.logFile.variableName = some path →
          ∃ full, Field.logFile.read s' (.text path) = .ok full) →
        ∃ c', load s' environment' none = .ok c' ∧
          ∀ (f : Field) t, f ≠ .logFile → environment'.lookup f.variableName = some t →
            c'.get f = c.get f := by
  refine ⟨fun f => ?_, exists_spell hload, fun s' environment' => exists_load_of_words hload⟩
  obtain ⟨v, hread⟩ := exists_read_of_load hload f
  exact admits_of_read hread

/-- A height with an underscore between blanks, a level with a dotless i, a word for no in
capitals and a word for nothing. -/
def looseEnvironment : Environment :=
  [("TOKENLINE_CONSOLE_HEIGHT".toList, " 1_2 ".toList),
    ("TOKENLINE_LOG_LEVEL".toList, "ınfo".toList),
    ("TOKENLINE_SHOW_BANNER".toList, " OFF ".toList),
    ("TOKENLINE_PROMPT".toList, "NONE".toList)]

def looseConfig : Config :=
  { defaults with height := 12, logLevel := some "INFO".toList, showBanner := false }

/-- The words for the fields that are set to these values. -/
def strictEnvironment : Environment :=
  [("TOKENLINE_CONSOLE_HEIGHT".toList, "12".toList),
    ("TOKENLINE_LOG_LEVEL".toList, "INFO".toList),
    ("TOKENLINE_SHOW_BANNER".toList, "False".toList),
    ("TOKENLINE_ENABLE_COMPLETION".toList, "True".toList),
    ("TOKENLINE_PROMPT".toList, "> ".toList),
    ("TOKENLINE_BANNER".toList, " ----------- tokenline console -----------".toList),
    ("TOKENLINE_PLUGIN_PACKAGE".toList, "plugins".toList)]

theorem load_rereads_loose :
    load atHome looseEnvironment none = .ok looseConfig ∧
      looseConfig.height < 10 ^ Decimal.maxIntegerDigits ∧
      ∃ c', load atHome strictEnvironment none = .ok c' ∧
        ∀ f : Field, f ≠ .logFile → c'.get f = looseConfig.get f := by
  have hload : load atHome looseEnvironment none = .ok looseConfig := by
    rw [load_of_readDocument rfl]
    with_unfolding_all rfl
  have hwords : ∀ (f : Field) t, f ≠ .logFile → strictEnvironment.lookup f.variableName = some t →
      f.spell (looseConfig.get f) = .ok t := by
    intro f t _ ht
    cases f <;> cases ht <;> with_unfolding_all rfl
  have hshort : (12 : Int).natAbs < 10 ^ Decimal.maxIntegerDigits :=
    Nat.lt_of_lt_of_le (by decide : 12 < 10 ^ 2) (Nat.pow_le_pow_right (by decide) (by decide))
  obtain ⟨-, -, hagain⟩ := load_rereads hload
  obtain ⟨c', hload', hget⟩ := hagain atHome strictEnvironment hwords nofun
  refine ⟨hload, (natAbs_lt_pow_iff (by decide)).mp hshort, c', hload', fun f hf => ?_⟩
  cases f with
  | logFile => exact absurd rfl hf
  | _ => exact hget _ _ hf rfl

end AliasConsole.Config
