import AliasConsole.Plugins.BuiltIn
import AliasConsole.Proofs.Registration
import AliasConsole.Proofs.Session.Keeping

/-!
# Loading the built-in plugins

Requests that the registry grants one after the other are registered in their
order, whether a script makes them or a module exports them.  So a console that
loads the built-in plugins has the command that lists all commands, the system
commands and the commands for variables, and has done nothing to the world but
read the clock.
-/

namespace AliasConsole

variable {W : Type} {depth : ℕ}

namespace Session

variable {s : Session W} {r : Registry W} {request : Registration W (Script W)}
  {requests : List (Registration W (Script W))} {nested : Text → Action W Result}

theorem exists_register (h : s.registry.register request = .ok r) :
    ∃ s', register request s = .ok () s' ∧ s'.Holds r (· = s.world) := by
  rw [register_of_ok h]
  by_cases hgrows : s.registry.commands.length < r.commands.length
  · rw [if_pos hgrows]
    exact ⟨_, rfl, rfl, rfl⟩
  · rw [if_neg hgrows]
    exact ⟨_, rfl, rfl, rfl⟩

/-- Requests that are granted one after the other can be registered. -/
theorem exists_registerAll (h : requests.foldlM Registry.register s.registry = .ok r) :
    ∃ s', registerAll requests s = .ok () s' ∧ s'.Holds r (· = s.world) := by
  induction requests generalizing s with
  | nil => exact ⟨s, rfl, Except.ok.inj h, rfl⟩
  | cons request rest ih =>
      rw [List.foldlM_cons] at h
      cases hfirst : s.registry.register request with
      | error fault =>
          rw [hfirst] at h
          cases h
      | ok next =>
          rw [hfirst] at h
          obtain ⟨s₁, hregister, hholds⟩ := exists_register hfirst
          rw [← hholds.registry_eq] at h
          obtain ⟨s₂, hrest, hholds'⟩ := ih h
          refine ⟨s₂, (bind_of_ok hregister).trans hrest, hholds'.registry_eq, ?_⟩
          exact hholds'.world.trans hholds.world

theorem exists_start (r : Registry W) (height : Int) (banner : Option Text) (w : W) :
    ∃ s, start height banner (.ofRegistry r w) = .ok () s ∧
      s.Holds (r.offerAll [listCommand]) (· = w) := by
  have hregister : ∀ s : Session W, s.Holds r (· = w) →
      ∃ s', register listCommand s = .ok () s' ∧
        s'.Holds (r.offerAll [listCommand]) (· = w) := by
    intro s hs
    have hgranted : s.registry.register listCommand = .ok (r.offerAll [listCommand]) := by
      rw [hs.registry_eq]
      rfl
    obtain ⟨s', hs', hholds⟩ := exists_register hgranted
    exact ⟨s', hs', hholds.registry_eq, hholds.world.trans hs.world⟩
  cases banner with
  | none => exact hregister { ofRegistry r w with height } ⟨rfl, rfl⟩
  | some text =>
      cases text with
      | nil => exact hregister { ofRegistry r w with height } ⟨rfl, rfl⟩
      | cons c rest =>
          exact hregister (printed (c :: rest) { ofRegistry r w with height }) ⟨rfl, rfl⟩

/-- A script that asks for them registers them as well. -/
theorem perform_enrol {s' : Session W} (h : registerAll requests s = .ok () s')
    (next : Script W) : perform nested (.enrol requests next) s = perform nested next s' := by
  induction requests generalizing s with
  | nil =>
      obtain ⟨-, rfl⟩ := EStateM.Result.ok.inj h
      rfl
  | cons request rest ih =>
      obtain ⟨_, s₁, hfirst, hrest⟩ := exists_ok_of_bind_ok h
      rw [Script.enrol, perform, bind_of_ok (attempt_of_ok hfirst)]
      exact ih hrest

/-- A module is loaded if its hook succeeds and what it exports is granted. -/
theorem exists_loadModule {c : Contribution W} {message : Value} {s₁ : Session W} (name : Text)
    (hhook : perform (submit depth) c.hook s = .ok message s₁)
    (hexports : c.commands.foldlM Registry.register s₁.registry = .ok r) :
    ∃ added s', loadModule depth name (.ok c) s = .ok added s' ∧ s'.Holds r (· = s₁.world) := by
  obtain ⟨s₂, hregister, hholds⟩ := exists_registerAll hexports
  have htaken : takeIn depth c s = .ok () s₂ := (bind_of_ok hhook).trans hregister
  have hstep : loadModule depth name (.ok c) s = (takeIn depth c >>= _) s := rfl
  rw [hstep, bind_of_ok htaken]
  exact ⟨_, _, rfl, hholds.registry_eq, hholds.world⟩

theorem loadModules_cons_of_ok {name : Text} {imported : Except Fault (Contribution W)}
    {rest : List (Text × Except Fault (Contribution W))} {added count : ℕ} {s₁ s₂ : Session W}
    (hfirst : loadModule depth name imported s = .ok added s₁)
    (hrest : loadModules depth rest s₁ = .ok count s₂) :
    loadModules depth ((name, imported) :: rest) s = .ok (added + count) s₂ := by
  rw [loadModules, bind_of_ok hfirst, bind_of_ok hrest]
  rfl

end Session

namespace BuiltIn

variable (host : Host W) (part : Part W Variables) (started : Seconds)

/-- All requests that make a console with the built-in plugins, in order. -/
def requests : List (Registration W (Script W)) :=
  Session.listCommand :: (host.commands started ++ host.literals ++ Variables.commands part)

/-- The registry of a console with the built-in plugins. -/
def registry : Registry W := Registry.empty.offerAll (requests host part started)

/-- The package of the built-in plugins. -/
def package : PluginModule W :=
  .package (.ok .none)
    [("system".toList, .entered host.contribution),
      ("vars".toList, .entered (Variables.contribution part))]

theorem find_package :
    PluginModule.find (builtInModules host part) "plugins".toList = .ok (package host part) :=
  rfl

theorem targets_package :
    (package host part).targets "plugins".toList =
      [("plugins.system.entrypoint".toList, .ok host.contribution),
        ("plugins.vars.entrypoint".toList, .ok (Variables.contribution part))] := by
  have hpublic : ((package host part).members.filter fun entry =>
      PluginModule.isPublic entry.1) = (package host part).members := rfl
  have hordered : (package host part).members.Pairwise
      fun a b => (!Text.before b.1 a.1) = true :=
    List.pairwise_pair.mpr rfl
  rw [PluginModule.targets, hpublic, List.mergeSort_of_pairwise hordered]
  rfl

theorem exists_loadModule_system (name : Text) {s : Session W} {w' : W}
    (hregistry : s.registry = Registry.empty.offerAll [Session.listCommand])
    (hclock : host.monotonic s.world = .ok started w') :
    ∃ added s', Session.loadModule depth name (.ok host.contribution) s = .ok added s' ∧
      s'.Holds (Registry.empty.offerAll
        (Session.listCommand :: (host.commands started ++ host.literals))) (· = w') := by
  have hgranted : (host.commands started).foldlM Registry.register s.registry =
      .ok (Registry.empty.offerAll (Session.listCommand :: host.commands started)) := by
    rw [hregistry]
    rfl
  obtain ⟨s₁, hregister, hholds⟩ :=
    Session.exists_registerAll (s := { s with world := w' }) hgranted
  have hhook : Session.perform (Session.submit depth) host.contribution.hook s = .ok .null s₁ :=
    (Session.perform_reading_of_ok hclock _).trans
      (Session.perform_enrol hregister (.reply .null))
  obtain ⟨added, s₂, hload, hholds'⟩ := Session.exists_loadModule (c := host.contribution) name
    hhook (by rw [hholds.registry_eq]; rfl)
  exact ⟨added, s₂, hload, hholds'.registry_eq, hholds'.world.trans hholds.world⟩

theorem exists_loadModule_variables (name : Text) {s : Session W} {requests : List _}
    (hregistry : s.registry = Registry.empty.offerAll requests) :
    ∃ added s', Session.loadModule depth name (.ok (Variables.contribution part)) s = .ok added s' ∧
      s'.Holds (Registry.empty.offerAll (requests ++ Variables.commands part)) (· = s.world) := by
  have hgranted : (Variables.commands part).foldlM Registry.register s.registry =
      .ok (s.registry.offerAll (Variables.commands part)) := rfl
  obtain ⟨s₁, hregister, hholds⟩ := Session.exists_registerAll hgranted
  obtain ⟨added, s₂, hload, hholds'⟩ := Session.exists_loadModule
    (c := Variables.contribution part) name (Session.perform_enrol hregister (.reply .null)) rfl
  refine ⟨added, s₂, hload, hholds'.registry_eq.trans ?_, hholds'.world.trans hholds.world⟩
  rw [hholds.registry_eq, hregistry]
  exact List.foldl_append.symm

/-- A console on which the built-in plugins are loaded has all their commands,
and the world is as the clock left it. -/
theorem exists_load (height : Int) (banner : Option Text) {w w' : W}
    (hclock : host.monotonic w = .ok started w') :
    ∃ count s, (do
        Session.start height banner
        Session.loadPackage depth (builtInModules host part) "plugins".toList)
          (.ofRegistry .empty w) = .ok count s ∧
      s.Holds (registry host part started) (· = w') := by
  obtain ⟨s₀, hstart, hholds₀⟩ := Session.exists_start .empty height banner w
  rw [← hholds₀.world] at hclock
  obtain ⟨systemCount, s₁, hsystem, hholds₁⟩ := exists_loadModule_system host started
    "plugins.system.entrypoint".toList hholds₀.registry_eq hclock
  obtain ⟨variableCount, s₂, hvariables, hholds₂⟩ := exists_loadModule_variables part
    "plugins.vars.entrypoint".toList hholds₁.registry_eq
  have hmodules : Session.loadPackage depth (builtInModules host part) "plugins".toList s₀ =
      .ok (systemCount + (variableCount + 0)) s₂ := by
    rw [Session.loadPackage, find_package]
    change Session.loadModules depth ((package host part).targets "plugins".toList) s₀ = _
    rw [targets_package]
    exact Session.loadModules_cons_of_ok hsystem
      (Session.loadModules_cons_of_ok hvariables rfl)
  exact ⟨_, s₂, (bind_of_ok hstart).trans hmodules, hholds₂.registry_eq,
    hholds₂.world.trans hholds₁.world⟩

end BuiltIn

end AliasConsole
