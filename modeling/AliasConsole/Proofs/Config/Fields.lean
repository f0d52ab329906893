import AliasConsole.Proofs.Config.Expansion
import AliasConsole.Proofs.Support

/-!
# Fields of the configuration

Each field has values of its own kind and reads what it is given.  To assign a value
to a field is to read it and to set the field; settings under distinct fields are
assigned if each of them can be read, and otherwise the first that cannot be read
says why.
-/

namespace AliasConsole.Config

/-- What a field is set to. -/
def Field.Setting : Field → Type
  | pluginPackage | prompt | banner => Text
  | logFile | logLevel => Option Text
  | height => Int
  | showBanner | enableCompletion => Bool

/-- Reads what a field is given. -/
def Field.read (s : Surroundings) : (f : Field) → Value → Except Fault f.Setting
  | pluginPackage, v => readModuleName (s.writing pluginPackage) v
  | logFile, v => readPath s.environment s.files (s.writing logFile) v
  | logLevel, v => readLogLevel (s.writing logLevel) v
  | height, v => readHeight (s.writing height) v
  | prompt, v => readPrompt (s.writing prompt) v
  | banner, v => readBanner (s.writing banner) v
  | showBanner, v => readBool (s.writing showBanner) v
  | enableCompletion, v => readBool (s.writing enableCompletion) v

def get (c : Config) : (f : Field) → f.Setting
  | .pluginPackage => c.pluginPackage
  | .logFile => c.logFile
  | .logLevel => c.logLevel
  | .height => c.height
  | .prompt => c.prompt
  | .banner => c.banner
  | .showBanner => c.showBanner
  | .enableCompletion => c.enableCompletion

def set (c : Config) : (f : Field) → f.Setting → Config
  | .pluginPackage, a => { c with pluginPackage := a }
  | .logFile, a => { c with logFile := a }
  | .logLevel, a => { c with logLevel := a }
  | .height, a => { c with height := a }
  | .prompt, a => { c with prompt := a }
  | .banner, a => { c with banner := a }
  | .showBanner, a => { c with showBanner := a }
  | .enableCompletion, a => { c with enableCompletion := a }

variable {s : Surroundings} {c c' : Config} {f g : Field} {v : Value} {fault : Fault}
  {settings : Settings}

@[simp]
theorem get_set_self (c : Config) (f : Field) (a : f.Setting) : (c.set f a).get f = a := by
  cases f <;> rfl

theorem get_set_of_ne (h : g ≠ f) (c : Config) (a : f.Setting) : (c.set f a).get g = c.get g := by
  cases f <;> cases g <;> first | rfl | exact absurd rfl h

@[simp]
theorem extra_set (c : Config) (f : Field) (a : f.Setting) : (c.set f a).extra = c.extra := by
  cases f <;> rfl

theorem assign_eq (s : Surroundings) (v : Value) (c : Config) (f : Field) :
    f.assign s v c = (f.read s v).map (c.set f) := by
  cases f <;> rfl

theorem assignAll_cons_of_ok {a : f.Setting} (h : f.read s v = .ok a) (rest : Settings)
    (c : Config) : assignAll s ((f, v) :: rest) c = assignAll s rest (c.set f a) := by
  rw [assignAll, assign_eq, h]
  rfl

theorem assignAll_cons_of_error (h : f.read s v = .error fault) (rest : Settings) (c : Config) :
    assignAll s ((f, v) :: rest) c = .error fault := by
  rw [assignAll, assign_eq, h]
  rfl

/-- The first value that cannot be read says why. -/
theorem exists_of_assignAll_eq_error (h : assignAll s settings c = .error fault) :
    ∃ f v, (f, v) ∈ settings ∧ f.read s v = .error fault := by
  induction settings generalizing c with
  | nil => cases h
  | cons setting rest ih =>
      obtain ⟨f, v⟩ := setting
      cases hread : f.read s v with
      | error own =>
          rw [assignAll_cons_of_error hread] at h
          obtain rfl := Except.error.inj h
          exact ⟨f, v, List.mem_cons_self, hread⟩
      | ok a =>
          rw [assignAll_cons_of_ok hread] at h
          obtain ⟨g, w, hmem, hg⟩ := ih h
          exact ⟨g, w, List.mem_cons_of_mem _ hmem, hg⟩

/-- If settings are assigned, then every one of them can be read, their fields are
set to what was read, and all else stays. -/
theorem get_of_assignAll_eq_ok (hkeys : (settings.map (·.1)).Nodup)
    (h : assignAll s settings c = .ok c') :
    (∀ f v, (f, v) ∈ settings → f.read s v = .ok (c'.get f)) ∧
      (∀ f, f ∉ settings.map (·.1) → c'.get f = c.get f) ∧ c'.extra = c.extra := by
  induction settings generalizing c with
  | nil =>
      obtain rfl := Except.ok.inj h
      exact ⟨nofun, fun _ _ => rfl, rfl⟩
  | cons setting rest ih =>
      obtain ⟨f, v⟩ := setting
      rw [List.map_cons, List.nodup_cons] at hkeys
      cases hread : f.read s v with
      | error own =>
          rw [assignAll_cons_of_error hread] at h
          cases h
      | ok a =>
          rw [assignAll_cons_of_ok hread] at h
          obtain ⟨hset, hkept, hextra⟩ := ih hkeys.2 h
          refine ⟨?_, ?_, ?_⟩
          · intro g w hmem
            rcases List.mem_cons.mp hmem with heq | hmem
            · obtain ⟨rfl, rfl⟩ := Prod.mk.inj heq
              rw [hkept g hkeys.1, get_set_self, hread]
            · exact hset g w hmem
          · intro g hg
            rw [List.map_cons, List.mem_cons, not_or] at hg
            rw [hkept g hg.2, get_set_of_ne hg.1]
          · rw [hextra, extra_set]

end AliasConsole.Config
