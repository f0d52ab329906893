import AliasConsole.Proofs.Config.Fields
import AliasConsole.Proofs.Toml.Keys

/-!
# What a field is given

The settings that are collected from the document and from the environment have each
field at most once, with the value of the environment if there is one and else with
the value that the document has at the place of the field.  What else the document
and the environment hold is not looked at.
-/

namespace AliasConsole.Config

open Toml

namespace Field

/-- What a field is given by an entry of the document at the name of its section. -/
def within? (f : Field) : Value → Option Value
  | .table entries => entries.lookup f.place.2
  | _ => none

/-- What a field is given by the document. -/
def documented? (document : Table) (f : Field) : Option Value :=
  (document.lookup f.place.1).bind f.within?

/-- What a field is given: the value of the environment, or else the one of the
document. -/
def given? (environment : Environment) (document : Table) (f : Field) : Option Value :=
  ((environment.lookup f.variableName).map .text).or (f.documented? document)

theorem at?_eq_some_iff {f : Field} {sectionName key : Text} :
    Field.at? sectionName key = some f ↔ f.place = (sectionName, key) := by
  constructor
  · intro h
    simpa using List.find?_some h
  · intro h
    have hplace : Field.at? f.place.1 f.place.2 = some f := by cases f <;> rfl
    rwa [h] at hplace

end Field

/-! ## The settings of a document -/

variable {found : Settings × List (Text × Value)} {sectionName key : Text} {v : Value}
  {entries document : Table} {settings : Settings}

theorem lookup_put_self (f : Field) (v : Value) (settings : Settings) :
    (Settings.put f v settings).lookup f = some v := by
  rw [Settings.put_eq, lookup_putAt_self]

theorem lookup_put_of_ne {f g : Field} (h : g ≠ f) (v : Value) (settings : Settings) :
    (Settings.put f v settings).lookup g = settings.lookup g := by
  rw [Settings.put_eq, lookup_putAt_of_ne h]

theorem nodup_fields_put (h : (settings.map (·.1)).Nodup) (f : Field) (v : Value) :
    ((Settings.put f v settings).map (·.1)).Nodup := by
  rw [Settings.put_eq]
  exact nodup_keys_putAt h f v

theorem lookup_takeEntry_self {f : Field} (h : f.place = (sectionName, key)) :
    (takeEntry sectionName found (key, v)).1.lookup f = some v := by
  rw [takeEntry, Field.at?_eq_some_iff.mpr h]
  exact lookup_put_self f v found.1

theorem lookup_takeEntry_of_ne {f : Field} (h : f.place ≠ (sectionName, key)) :
    (takeEntry sectionName found (key, v)).1.lookup f = found.1.lookup f := by
  rw [takeEntry]
  cases hfield : Field.at? sectionName key with
  | none => rfl
  | some g =>
      refine lookup_put_of_ne ?_ v found.1
      rintro rfl
      exact h (Field.at?_eq_some_iff.mp hfield)

theorem lookup_takeEntries_of_ne {f : Field} (h : f.place.1 ≠ sectionName) :
    (entries.foldl (takeEntry sectionName) found).1.lookup f = found.1.lookup f := by
  induction entries generalizing found with
  | nil => rfl
  | cons entry rest ih =>
      rw [List.foldl_cons, ih, lookup_takeEntry_of_ne]
      intro hplace
      exact h (congrArg Prod.fst hplace)

/-- The entries of its section give a field what they have under its key. -/
theorem lookup_takeEntries (hkeys : (entries.map (·.1)).Nodup) {f : Field}
    (h : f.place.1 = sectionName) :
    (entries.foldl (takeEntry sectionName) found).1.lookup f =
      (entries.lookup f.place.2).or (found.1.lookup f) := by
  induction entries generalizing found with
  | nil => rfl
  | cons entry rest ih =>
      obtain ⟨key, v⟩ := entry
      rw [List.map_cons, List.nodup_cons] at hkeys
      rw [List.foldl_cons, ih hkeys.2]
      by_cases hkey : f.place.2 = key
      · have hplace : f.place = (sectionName, key) := Prod.ext h hkey
        have hrest : rest.lookup f.place.2 = none := by
          rw [lookup_eq_none_iff_notMem, hkey]
          exact hkeys.1
        rw [lookup_takeEntry_self hplace, lookup_cons_of_eq hkey, hrest]
        rfl
      · have hplace : f.place ≠ (sectionName, key) := fun hplace => hkey (congrArg Prod.snd hplace)
        rw [lookup_takeEntry_of_ne hplace, lookup_cons_of_ne hkey]

theorem lookup_takeSection_of_ne {f : Field} (h : f.place.1 ≠ sectionName) :
    (takeSection found (sectionName, v)).1.lookup f = found.1.lookup f := by
  rw [takeSection.eq_def]
  split
  · exact lookup_takeEntries_of_ne h
  · rfl

theorem lookup_takeSection (hv : IsKeyed v) {f : Field} (h : f.place.1 = sectionName) :
    (takeSection found (sectionName, v)).1.lookup f = (f.within? v).or (found.1.lookup f) := by
  rw [takeSection.eq_def]
  split
  · rename_i entries heq
    dsimp only at heq
    subst heq
    exact lookup_takeEntries (isKeyed_table_iff.mp hv).1 h
  · rename_i hnone
    have hwithin : f.within? v = none := by
      rw [Field.within?.eq_def]
      split
      · exact absurd rfl (hnone _)
      · rfl
    rw [hwithin]
    rfl

theorem lookup_takeSections (hdocument : IsKeyed (.table document)) (f : Field) :
    (document.foldl takeSection found).1.lookup f =
      (f.documented? document).or (found.1.lookup f) := by
  induction document generalizing found with
  | nil => rfl
  | cons entry rest ih =>
      obtain ⟨name, v⟩ := entry
      obtain ⟨hkeys, hentries⟩ := isKeyed_table_iff.mp hdocument
      obtain ⟨hv, hrest⟩ := List.forall_mem_cons.mp hentries
      rw [List.map_cons, List.nodup_cons] at hkeys
      rw [List.foldl_cons, ih (.table hkeys.2 hrest), Field.documented?, Field.documented?]
      by_cases hname : f.place.1 = name
      · have hnone : rest.lookup f.place.1 = none := by
          rw [lookup_eq_none_iff_notMem, hname]
          exact hkeys.1
        rw [lookup_takeSection hv hname, lookup_cons_of_eq hname, hnone]
        rfl
      · rw [lookup_takeSection_of_ne hname, lookup_cons_of_ne hname]

theorem nodup_fields_takeEntry (hfound : (found.1.map (·.1)).Nodup) (entry : Text × Value) :
    ((takeEntry sectionName found entry).1.map (·.1)).Nodup := by
  rw [takeEntry]
  split
  · exact nodup_fields_put hfound _ _
  · exact hfound

theorem nodup_fields_takeEntries (hfound : (found.1.map (·.1)).Nodup) (entries : Table) :
    ((entries.foldl (takeEntry sectionName) found).1.map (·.1)).Nodup := by
  induction entries generalizing found with
  | nil => exact hfound
  | cons entry rest ih => exact ih (nodup_fields_takeEntry hfound entry)

theorem nodup_fields_takeSections (hfound : (found.1.map (·.1)).Nodup) (document : Table) :
    ((document.foldl takeSection found).1.map (·.1)).Nodup := by
  induction document generalizing found with
  | nil => exact hfound
  | cons entry rest ih =>
      apply ih
      rw [takeSection.eq_def]
      split
      · exact nodup_fields_takeEntries hfound _
      · exact hfound

/-! ## The settings of the environment -/

/-- The settings after the one that a variable of the environment is for. -/
def takeVariable (environment : Environment) (settings : Settings) (f : Field) : Settings :=
  match environment.lookup f.variableName with
  | some value => Settings.put f (.text value) settings
  | none => settings

theorem withEnvironment_eq (environment : Environment) (settings : Settings) :
    withEnvironment environment settings = Field.all.foldl (takeVariable environment) settings :=
  rfl

theorem lookup_takeVariable_self (environment : Environment) (settings : Settings) (f : Field) :
    (takeVariable environment settings f).lookup f =
      ((environment.lookup f.variableName).map .text).or (settings.lookup f) := by
  rw [takeVariable]
  cases environment.lookup f.variableName with
  | some value => exact lookup_put_self f _ settings
  | none => rfl

theorem lookup_takeVariable_of_ne {f g : Field} (h : g ≠ f) (environment : Environment)
    (settings : Settings) : (takeVariable environment settings f).lookup g = settings.lookup g := by
  rw [takeVariable]
  cases environment.lookup f.variableName with
  | some value => exact lookup_put_of_ne h _ settings
  | none => rfl

theorem lookup_withEnvironment (environment : Environment) (settings : Settings) (f : Field) :
    (withEnvironment environment settings).lookup f =
      ((environment.lookup f.variableName).map .text).or (settings.lookup f) := by
  have hfold : ∀ (fields : List Field) (settings : Settings),
      (fields.foldl (takeVariable environment) settings).lookup f =
        if f ∈ fields then ((environment.lookup f.variableName).map .text).or (settings.lookup f)
        else settings.lookup f := by
    intro fields
    induction fields with
    | nil =>
        intro settings
        rfl
    | cons g rest ih =>
        intro settings
        rw [List.foldl_cons, ih]
        by_cases hfield : f = g
        · subst hfield
          rw [lookup_takeVariable_self, ← Option.or_assoc, Option.or_self]
          simp
        · rw [lookup_takeVariable_of_ne hfield]
          simp [hfield]
  rw [withEnvironment_eq, hfold, if_pos]
  cases f <;> decide

theorem nodup_fields_withEnvironment (h : (settings.map (·.1)).Nodup)
    (environment : Environment) :
    ((withEnvironment environment settings).map (·.1)).Nodup := by
  rw [withEnvironment_eq]
  generalize Field.all = fields
  induction fields generalizing settings with
  | nil => exact h
  | cons f rest ih =>
      apply ih
      rw [takeVariable]
      split
      · exact nodup_fields_put h f _
      · exact h

/-! ## All settings -/

/-- The settings that a configuration is made of. -/
def collected (environment : Environment) (document : Table) : Settings :=
  withEnvironment environment (ofDocument document).1

theorem lookup_collected (hdocument : IsKeyed (.table document)) (environment : Environment)
    (f : Field) :
    (collected environment document).lookup f = f.given? environment document := by
  rw [collected, lookup_withEnvironment, ofDocument, lookup_takeSections hdocument,
    Field.given?]
  exact congrArg _ (Option.or_none)

theorem nodup_fields_collected (environment : Environment) (document : Table) :
    ((collected environment document).map (·.1)).Nodup := by
  have hnone : ((([], []) : Settings × List (Text × Value)).1.map (·.1)).Nodup := List.nodup_nil
  exact nodup_fields_withEnvironment (nodup_fields_takeSections hnone document) environment

/-- The settings are what the fields are given. -/
theorem mem_collected_iff (hdocument : IsKeyed (.table document)) {environment : Environment}
    {f : Field} {v : Value} :
    (f, v) ∈ collected environment document ↔ f.given? environment document = some v := by
  rw [← lookup_collected hdocument]
  exact ⟨lookup_of_mem (nodup_fields_collected environment document), mem_of_lookup⟩

end AliasConsole.Config
