import AliasConsole.Plugins.Package
import AliasConsole.Proofs.Plugins.Bindings
import AliasConsole.Proofs.Plugins.Loading
import AliasConsole.Proofs.Registration.Appending
import AliasConsole.Proofs.Session.Lasting

/-!
# What loading a package registers

Loading takes the members of a package in the order of their names.  A member that
cannot be imported is skipped; any other one registers what its hook registers and then
the commands among its exports.  The first hook that fails and the first export that is
refused end everything, and what was registered before stays.  The number that loading
answers is the growth of the registry.
-/

namespace AliasConsole

variable {W : Type} {depth : ℕ}

/-! ## Hooks -/

namespace Script

/-- The script prints nothing, submits nothing and does not ask which commands there
are. -/
inductive OnlyRegisters : Script W → Prop
  | reply (message : Value) : OnlyRegisters (.reply message)
  | fail (fault : Fault) : OnlyRegisters (.fail fault)
  | world (change : W → W) {next : W → Script W} (hnext : ∀ w, OnlyRegisters (next w)) :
      OnlyRegisters (.world change next)
  | register (request : Registration W (Script W)) {next : Except Fault Unit → Script W}
      (hnext : ∀ answer, OnlyRegisters (next answer)) : OnlyRegisters (.register request next)

/-- What the script registers when it is carried out in a world, in order, and how it
ends: in another world or by a fault. -/
inductive Enrols : Script W → W → List (Registration W (Script W)) → Except Fault W → Prop
  | reply {message : Value} {w : W} : Enrols (.reply message) w [] (.ok w)
  | fail {fault : Fault} {w : W} : Enrols (.fail fault) w [] (.error fault)
  | world {change : W → W} {next : W → Script W} {w : W}
      {requests : List (Registration W (Script W))} {outcome : Except Fault W}
      (hnext : Enrols (next w) (change w) requests outcome) :
      Enrols (.world change next) w requests outcome
  | granted {request : Registration W (Script W)} {next : Except Fault Unit → Script W} {w : W}
      {requests : List (Registration W (Script W))} {outcome : Except Fault W}
      (hgranted : request.refusal? = none) (hnext : Enrols (next (.ok ())) w requests outcome) :
      Enrols (.register request next) w (request :: requests) outcome
  | refused {request : Registration W (Script W)} {next : Except Fault Unit → Script W} {w : W}
      {requests : List (Registration W (Script W))} {outcome : Except Fault W} {fault : Fault}
      (hrefused : request.refusal? = some fault)
      (hnext : Enrols (next (.error fault)) w requests outcome) :
      Enrols (.register request next) w requests outcome

theorem OnlyRegisters.enrol {next : Script W} (h : next.OnlyRegisters)
    (requests : List (Registration W (Script W))) : (enrol requests next).OnlyRegisters := by
  induction requests with
  | nil => exact h
  | cons request rest ih =>
      apply OnlyRegisters.register
      intro answer
      cases answer with
      | ok _ => exact ih
      | error fault => exact .fail fault

theorem OnlyRegisters.exists_enrols {script : Script W} (h : script.OnlyRegisters) (w : W) :
    ∃ requests outcome, script.Enrols w requests outcome := by
  induction h generalizing w with
  | reply message => exact ⟨[], .ok w, .reply⟩
  | fail fault => exact ⟨[], .error fault, .fail⟩
  | world change hnext ih =>
      obtain ⟨requests, outcome, hrest⟩ := ih w (change w)
      exact ⟨requests, outcome, .world hrest⟩
  | register request hnext ih =>
      cases hrefusal : request.refusal? with
      | none =>
          obtain ⟨requests, outcome, hrest⟩ := ih (.ok ()) w
          exact ⟨request :: requests, outcome, .granted hrefusal hrest⟩
      | some fault =>
          obtain ⟨requests, outcome, hrest⟩ := ih (.error fault) w
          exact ⟨requests, outcome, .refused hrefusal hrest⟩

end Script

/-- What loading modules one after the other registers, in order, and how it ends. -/
inductive Brings : List (Text × Except Fault (Contribution W)) → W →
    List (Registration W (Script W)) → Except Fault W → Prop
  | done {w : W} : Brings [] w [] (.ok w)
  | skipped {name : Text} {fault : Fault} {rest : List (Text × Except Fault (Contribution W))}
      {w : W} {requests : List (Registration W (Script W))} {outcome : Except Fault W}
      (hordinary : fault.kind.isDeparture = false) (hrest : Brings rest w requests outcome) :
      Brings ((name, .error fault) :: rest) w requests outcome
  | taken {name : Text} {c : Contribution W} {rest : List (Text × Except Fault (Contribution W))}
      {w w₁ : W} {asked requests : List (Registration W (Script W))} {outcome : Except Fault W}
      (hhook : c.hook.Enrols w asked (.ok w₁)) (hgranted : ∀ q ∈ c.commands, q.refusal? = none)
      (hrest : Brings rest w₁ requests outcome) :
      Brings ((name, .ok c) :: rest) w (asked ++ c.commands ++ requests) outcome
  | failed {name : Text} {c : Contribution W} {rest : List (Text × Except Fault (Contribution W))}
      {w : W} {asked : List (Registration W (Script W))} {fault : Fault}
      (hhook : c.hook.Enrols w asked (.error fault)) :
      Brings ((name, .ok c) :: rest) w asked (.error fault)
  | refused {name : Text} {c : Contribution W} {rest : List (Text × Except Fault (Contribution W))}
      {w w₁ : W} {asked front back : List (Registration W (Script W))}
      {q : Registration W (Script W)} {fault : Fault}
      (hhook : c.hook.Enrols w asked (.ok w₁)) (hcommands : c.commands = front ++ q :: back)
      (hgranted : ∀ p ∈ front, p.refusal? = none) (hrefused : q.refusal? = some fault) :
      Brings ((name, .ok c) :: rest) w (asked ++ front) (.error fault)

/-- Importing fails by an ordinary fault, or it gives a hook that only registers. -/
def IsOrdinary : Except Fault (Contribution W) → Prop
  | .ok c => c.hook.OnlyRegisters
  | .error fault => fault.kind.isDeparture = false

theorem exists_brings {imports : List (Text × Except Fault (Contribution W))}
    (h : ∀ m ∈ imports, IsOrdinary m.2) (w : W) :
    ∃ requests outcome, Brings imports w requests outcome := by
  induction imports generalizing w with
  | nil => exact ⟨[], .ok w, .done⟩
  | cons m rest ih =>
      obtain ⟨name, imported⟩ := m
      obtain ⟨hfirst, hothers⟩ := List.forall_mem_cons.mp h
      cases imported with
      | error fault =>
          obtain ⟨requests, outcome, hrest⟩ := ih hothers w
          exact ⟨requests, outcome, .skipped hfirst hrest⟩
      | ok c =>
          obtain ⟨asked, ending, hhook⟩ := hfirst.exists_enrols w
          cases ending with
          | error fault => exact ⟨asked, .error fault, .failed hhook⟩
          | ok w₁ =>
              cases hfound : c.commands.find? fun q => q.refusal?.isSome with
              | none =>
                  obtain ⟨requests, outcome, hrest⟩ := ih hothers w₁
                  have hgranted : ∀ q ∈ c.commands, q.refusal? = none := by
                    simpa using hfound
                  exact ⟨_, outcome, .taken hhook hgranted hrest⟩
              | some q =>
                  obtain ⟨hq, front, back, hcommands, hbefore⟩ :=
                    List.find?_eq_some_iff_append.mp hfound
                  obtain ⟨fault, hrefused⟩ := Option.isSome_iff_exists.mp hq
                  exact ⟨_, .error fault, .refused hhook hcommands (by simpa using hbefore)
                    hrefused⟩

namespace Session

/-! ## How loading ends -/

/-- The result is as the outcome says, with the commands of the registry. -/
def Ends {α : Type} (result : EStateM.Result Fault (Session W) α) (r : Registry W) :
    Except Fault W → Prop
  | .ok w => ∃ a s', result = .ok a s' ∧ s'.Holds r (· = w)
  | .error fault => ∃ s', result = .error fault s' ∧ s'.registry = r

section Ends

variable {α β : Type} {x : Action W α} {f : α → Action W β} {s : Session W} {r r' : Registry W}
  {w : W} {outcome : Except Fault W}

theorem Ends.bind (hx : Ends (x s) r (.ok w))
    (hf : ∀ a s₁, s₁.registry = r → s₁.world = w → Ends (f a s₁) r' outcome) :
    Ends ((x >>= f) s) r' outcome := by
  obtain ⟨a, s₁, hfirst, hholds⟩ := hx
  rw [bind_of_ok hfirst]
  exact hf a s₁ hholds.registry_eq hholds.world

theorem Ends.bind_of_fault {fault : Fault} (hx : Ends (x s) r (.error fault)) :
    Ends ((x >>= f) s) r (.error fault) := by
  obtain ⟨s₁, hfirst, hregistry⟩ := hx
  exact ⟨s₁, bind_of_error hfirst, hregistry⟩

end Ends

section Steps

variable {s : Session W} {w : W} {outcome : Except Fault W} {nested : Text → Action W Result}
  {request : Registration W (Script W)} {requests : List (Registration W (Script W))}
  {imports : List (Text × Except Fault (Contribution W))} {fault : Fault}

theorem ends_register_of_refused (h : request.refusal? = some fault) :
    Ends (register request s) s.registry (.error fault) :=
  ⟨s, register_of_error (Registry.register_of_refused h s.registry), rfl⟩

theorem ends_perform {script : Script W} (h : script.Enrols w requests outcome)
    (hw : s.world = w) :
    Ends (perform nested script s) (s.registry.appended requests) outcome := by
  induction h generalizing s with
  | reply =>
      rw [Registry.appended_nil]
      exact ⟨_, s, rfl, rfl, hw⟩
  | fail =>
      rw [Registry.appended_nil]
      exact ⟨s, rfl, rfl⟩
  | @world change next w requests outcome hnext ih =>
      subst hw
      exact ih (s := { s with world := change s.world }) rfl
  | @granted request next w requests outcome hgranted hnext ih =>
      obtain ⟨s₁, hregister, hholds⟩ :=
        exists_register (Registry.register_of_granted hgranted s.registry)
      have hrest := ih (hholds.world.trans hw)
      rw [hholds.registry_eq, ← Registry.appended_append] at hrest
      rwa [perform, bind_of_ok (attempt_of_ok hregister)]
  | @refused request next w requests outcome fault hrefused hnext ih =>
      have hregister := register_of_error (Registry.register_of_refused hrefused s.registry)
      rw [perform, bind_of_ok (attempt_of_error hregister)]
      exact ih hw

theorem ends_registerAll (h : ∀ q ∈ requests, q.refusal? = none) :
    Ends (registerAll requests s) (s.registry.appended requests) (.ok s.world) := by
  obtain ⟨s', hregister, hholds⟩ :=
    exists_registerAll (Registry.foldlM_register_of_granted h s.registry)
  exact ⟨(), s', hregister, hholds⟩

theorem registerAll_append (front back : List (Registration W (Script W))) :
    registerAll (front ++ back) = (registerAll front >>= fun _ => registerAll back) := by
  induction front with
  | nil => rfl
  | cons request rest ih => rw [List.cons_append, registerAll, registerAll, ih, bind_assoc]

theorem ends_registerAll_of_refused {front back : List (Registration W (Script W))}
    (hgranted : ∀ p ∈ front, p.refusal? = none) (hrefused : request.refusal? = some fault) :
    Ends (registerAll (front ++ request :: back) s) (s.registry.appended front)
      (.error fault) := by
  rw [registerAll_append]
  apply (ends_registerAll hgranted).bind
  intro _ s₁ hregistry _
  rw [← hregistry]
  exact (ends_register_of_refused hrefused).bind_of_fault

theorem Ends.loadModule {c : Contribution W} {r : Registry W}
    (h : Ends (takeIn depth c s) r outcome) (name : Text) :
    Ends (loadModule depth name (.ok c) s) r outcome := by
  have hstep : Session.loadModule depth name (.ok c) s = (takeIn depth c >>= _) s := rfl
  rw [hstep]
  cases outcome with
  | ok w =>
      apply h.bind
      intro _ s₁ hregistry hworld
      exact ⟨_, _, rfl, hregistry, hworld⟩
  | error fault => exact h.bind_of_fault

theorem loadModule_of_error (name : Text) (h : fault.kind.isDeparture = false) :
    loadModule depth name (.error fault) s =
      .ok 0 (reported .error loaderLogger (skippedText name) s) := by
  rw [loadModule]
  simp only [h]
  rfl

theorem Ends.loadModules_cons {name : Text} {imported : Except Fault (Contribution W)}
    {rest : List (Text × Except Fault (Contribution W))} {r r' : Registry W}
    (hfirst : Ends (Session.loadModule depth name imported s) r (.ok w))
    (hrest : ∀ s₁, s₁.registry = r → s₁.world = w →
      Ends (loadModules depth rest s₁) r' outcome) :
    Ends (loadModules depth ((name, imported) :: rest) s) r' outcome := by
  rw [loadModules]
  apply hfirst.bind
  intro added s₁ hregistry hworld
  have hothers := hrest s₁ hregistry hworld
  cases outcome with
  | ok w' =>
      apply hothers.bind
      intro more s₂ hregistry' hworld'
      exact ⟨added + more, s₂, rfl, hregistry', hworld'⟩
  | error fault => exact hothers.bind_of_fault

/-- Loading modules registers what they bring. -/
theorem ends_loadModules (h : Brings imports w requests outcome) (hw : s.world = w) :
    Ends (loadModules depth imports s) (s.registry.appended requests) outcome := by
  induction h generalizing s with
  | done =>
      rw [Registry.appended_nil]
      exact ⟨0, s, rfl, rfl, hw⟩
  | @skipped name fault rest w requests outcome hordinary hrest ih =>
      have hskipped : Ends (loadModule depth name (.error fault) s) s.registry (.ok s.world) :=
        ⟨0, _, loadModule_of_error name hordinary, rfl, rfl⟩
      apply hskipped.loadModules_cons
      intro s₁ hregistry hworld
      rw [← hregistry]
      exact ih (hworld.trans hw)
  | @taken name c rest w w₁ asked requests outcome hhook hgranted hrest ih =>
      have htaken :
          Ends (takeIn depth c s) (s.registry.appended (asked ++ c.commands)) (.ok w₁) := by
        apply (ends_perform hhook hw).bind
        intro _ s₁ hregistry hworld
        have hexports := ends_registerAll (s := s₁) hgranted
        rwa [hregistry, hworld, ← Registry.appended_append] at hexports
      apply (htaken.loadModule name).loadModules_cons
      intro s₁ hregistry hworld
      have hothers := ih hworld
      rwa [hregistry, ← Registry.appended_append] at hothers
  | @failed name c rest w asked fault hhook =>
      have htaken : Ends (takeIn depth c s) (s.registry.appended asked) (.error fault) :=
        (ends_perform hhook hw).bind_of_fault
      exact (htaken.loadModule name).bind_of_fault
  | @refused name c rest w w₁ asked front back q fault hhook hcommands hgranted hrefused =>
      have htaken :
          Ends (takeIn depth c s) (s.registry.appended (asked ++ front)) (.error fault) := by
        apply (ends_perform hhook hw).bind
        intro _ s₁ hregistry _
        have hexports : Ends (registerAll (front ++ q :: back) s₁) _ _ :=
          ends_registerAll_of_refused hgranted hrefused
        rwa [← hcommands, hregistry, ← Registry.appended_append] at hexports
      exact (htaken.loadModule name).bind_of_fault

end Steps

/-! ## What loading cannot harm -/

section Lasting

variable {I : Session W → Prop} (hI : Lasting I)
  (hhistory : ∀ s history, I s → I { s with history })

include hI hhistory

theorem Lasting.preserves_takeIn (c : Contribution W) : Preserves I (takeIn depth c) := by
  have hsubmit : ∀ line, Preserves I (submit depth line) :=
    hI.preserves_submitAt hhistory (depth + 1)
  exact (hI.preserves_perform hsubmit c.hook).bind fun _ => hI.preserves_registerAll c.commands

theorem Lasting.preserves_loadModule (name : Text) (imported : Except Fault (Contribution W)) :
    Preserves I (loadModule depth name imported) := by
  cases imported with
  | error fault =>
      rw [loadModule]
      dsimp only
      split_ifs
      · exact (Preserves.throw fault).bind fun _ =>
          (hI.preserves_report _ _ _).bind fun _ => Preserves.pure 0
      · exact (hI.preserves_report _ _ _).bind fun _ => Preserves.pure 0
  | ok c =>
      intro s hs
      have hstep : loadModule depth name (.ok c) s = (takeIn depth c >>= _) s := rfl
      rw [sessionAfter, hstep]
      refine (hI.preserves_takeIn hhistory c).bind (fun _ s₁ hs₁ => ?_) s hs
      exact hI.preserves_report _ _ _ s₁ hs₁

/-- A property that no step of a script and no recorded line can harm is preserved by
loading a package. -/
theorem Lasting.preserves_loadPackage (modules : List (Text × PluginModule W))
    (package : Text) : Preserves I (loadPackage depth modules package) := by
  have hmodules : ∀ imports, Preserves I (loadModules (W := W) depth imports) := by
    intro imports
    induction imports with
    | nil => exact Preserves.pure 0
    | cons m rest ih =>
        exact (hI.preserves_loadModule hhistory m.1 m.2).bind fun _ =>
          ih.bind fun _ => Preserves.pure _
  rw [loadPackage]
  cases PluginModule.find modules package with
  | error fault => exact Preserves.throw fault
  | ok m =>
      dsimp only
      split_ifs
      · exact Preserves.throw _
      · exact hmodules _

end Lasting

/-! ## Counting -/

section Counting

variable {s s' : Session W} {name : Text} {imported : Except Fault (Contribution W)} {n : ℕ}

theorem extends_of_takeIn {c : Contribution W} (h : takeIn depth c s = .ok () s') :
    s.registry.Extends s'.registry := by
  have hkept : Preserves (fun s' => s.registry.Extends s'.registry) (takeIn depth c) :=
    (lasting_extends s.registry).preserves_takeIn (fun _ _ hs => hs) c
  have hafter := hkept s (Registry.Extends.refl s.registry)
  rwa [sessionAfter_of_ok h] at hafter

/-- Whatever a module does, the answer is the growth of the registry. -/
theorem size_loadModule (h : loadModule depth name imported s = .ok n s') :
    s'.registry.size = s.registry.size + n := by
  cases imported with
  | error fault =>
      cases hdeparture : fault.kind.isDeparture with
      | true =>
          rw [loadModule] at h
          simp only [hdeparture] at h
          cases h
      | false =>
          rw [loadModule_of_error name hdeparture] at h
          obtain ⟨rfl, rfl⟩ := EStateM.Result.ok.inj h
          rfl
  | ok c =>
      have hstep : loadModule depth name (.ok c) s = (takeIn depth c >>= _) s := rfl
      rw [hstep] at h
      obtain ⟨_, s₁, htaken, hrest⟩ := exists_ok_of_bind_ok h
      obtain ⟨rfl, rfl⟩ := EStateM.Result.ok.inj hrest
      have hle := (extends_of_takeIn htaken).size_le
      exact (Nat.add_sub_of_le hle).symm

theorem size_loadModules {imports : List (Text × Except Fault (Contribution W))}
    (h : loadModules depth imports s = .ok n s') : s'.registry.size = s.registry.size + n := by
  induction imports generalizing s n with
  | nil =>
      obtain ⟨rfl, rfl⟩ := EStateM.Result.ok.inj h
      rfl
  | cons m rest ih =>
      obtain ⟨added, s₁, hfirst, h⟩ := exists_ok_of_bind_ok h
      obtain ⟨more, s₂, hrest, h⟩ := exists_ok_of_bind_ok h
      obtain ⟨rfl, rfl⟩ := EStateM.Result.ok.inj h
      rw [ih hrest, size_loadModule hfirst, Nat.add_assoc]

end Counting

end Session

/-! ## The order of the modules -/

namespace PluginModule

variable {members : List (Text × PluginModule W)}

/-- The members that take part, by increasing name. -/
def ordered (members : List (Text × PluginModule W)) : List (Text × PluginModule W) :=
  (members.filter fun entry => isPublic entry.1).mergeSort fun a b => !Text.before b.1 a.1

theorem mem_ordered_iff {entry : Text × PluginModule W} :
    entry ∈ ordered members ↔ entry ∈ members ∧ isPublic entry.1 = true := by
  rw [ordered, List.mem_mergeSort, List.mem_filter]

theorem pairwise_ordered (hnames : (members.map Prod.fst).Nodup) :
    (ordered members).Pairwise fun a b => a.1 < b.1 := by
  let listed := members.filter fun entry => isPublic entry.1
  have hnotBefore : ∀ a b : Text × PluginModule W,
      (!Text.before b.1 a.1) = true ↔ a.1 ≤ b.1 := by
    intro a b
    rw [Bool.not_eq_true', ← Bool.not_eq_true, before_iff_lt, not_lt]
  have hsorted : (ordered members).Pairwise fun a b => a.1 ≤ b.1 := by
    have hpairwise : (ordered members).Pairwise fun a b => (!Text.before b.1 a.1) = true := by
      apply List.pairwise_mergeSort
      · intro a b c hab hbc
        exact (hnotBefore a c).mpr (((hnotBefore a b).mp hab).trans ((hnotBefore b c).mp hbc))
      · intro a b
        rw [Bool.or_eq_true, hnotBefore, hnotBefore]
        exact le_total a.1 b.1
    exact hpairwise.imp fun {a b} => (hnotBefore a b).mp
  have hdistinct : (ordered members).Pairwise fun a b => a.1 ≠ b.1 := by
    have hlisted : (listed.map Prod.fst).Nodup := hnames.sublist (List.filter_sublist.map _)
    have hperm : (ordered members).Perm listed := List.mergeSort_perm _ _
    exact List.pairwise_map.mp ((hperm.map Prod.fst).nodup_iff.mpr hlisted)
  exact hsorted.imp₂ (fun _ _ => lt_of_le_of_ne) hdistinct

/-- The order in which the members are listed does not matter. -/
theorem ordered_of_perm {members' : List (Text × PluginModule W)}
    (hnames : (members.map Prod.fst).Nodup) (h : members'.Perm members) :
    ordered members' = ordered members := by
  have hnames' : (members'.map Prod.fst).Nodup := (h.map Prod.fst).nodup_iff.mpr hnames
  have hperm : (ordered members').Perm (ordered members) :=
    (List.mergeSort_perm _ _).trans ((h.filter _).trans (List.mergeSort_perm _ _).symm)
  apply hperm.eq_of_pairwise _ (pairwise_ordered hnames') (pairwise_ordered hnames)
  exact fun a b _ _ hab hba => absurd hba hab.asymm

end PluginModule

namespace Session

theorem loadPackage_of_find {modules members : List (Text × PluginModule W)} {package : Text}
    {body : Except Fault (Contribution W)}
    (hfind : PluginModule.find modules package = .ok (.package body members)) :
    loadPackage depth modules package =
      loadModules depth ((PluginModule.ordered members).map fun entry =>
        PluginModule.target package entry.1 entry.2) := by
  rw [loadPackage, hfind]
  rfl

/-- Loading a package registers what its members bring, by increasing name, whatever the
order in which they are listed.  It answers the growth of the registry, or the fault of
the hook or the export that ended it, and what was registered before stays. -/
theorem loadPackage_brings {modules members : List (Text × PluginModule W)} {package : Text}
    {body : Except Fault (Contribution W)}
    (hfind : PluginModule.find modules package = .ok (.package body members))
    (hnames : (members.map Prod.fst).Nodup)
    (hordinary : ∀ entry ∈ members, PluginModule.isPublic entry.1 = true →
      IsOrdinary (PluginModule.target package entry.1 entry.2).2) (s : Session W) :
    ∃ (order : List (Text × PluginModule W)) (requests : List (Registration W (Script W)))
        (outcome : Except Fault W),
      order.Pairwise (fun a b => a.1 < b.1) ∧
      (∀ entry, entry ∈ order ↔ entry ∈ members ∧ PluginModule.isPublic entry.1 = true) ∧
      Brings (order.map fun entry => PluginModule.target package entry.1 entry.2) s.world
        requests outcome ∧
      (∀ depth w, outcome = .ok w → ∃ n s', loadPackage depth modules package s = .ok n s' ∧
        s'.registry = s.registry.appended requests ∧
        s'.registry.size = s.registry.size + n) ∧
      (∀ depth fault, outcome = .error fault → ∃ s',
        loadPackage depth modules package s = .error fault s' ∧
        s'.registry = s.registry.appended requests) ∧
      ∀ depth modules' members',
        PluginModule.find modules' package = .ok (.package body members') → members'.Perm members →
          loadPackage depth modules' package = loadPackage depth modules package := by
  let imports := (PluginModule.ordered members).map fun entry =>
    PluginModule.target package entry.1 entry.2
  have himports : ∀ m ∈ imports, IsOrdinary m.2 := by
    intro m hm
    obtain ⟨entry, hentry, rfl⟩ := List.mem_map.mp hm
    obtain ⟨hmember, hpublic⟩ := PluginModule.mem_ordered_iff.mp hentry
    exact hordinary entry hmember hpublic
  obtain ⟨requests, outcome, hbrings⟩ := exists_brings himports s.world
  have hends : ∀ depth, Ends (loadPackage depth modules package s)
      (s.registry.appended requests) outcome := by
    intro depth
    rw [loadPackage_of_find hfind]
    exact ends_loadModules hbrings rfl
  refine ⟨PluginModule.ordered members, requests, outcome,
    PluginModule.pairwise_ordered hnames, fun _ => PluginModule.mem_ordered_iff, hbrings,
    ?_, ?_, ?_⟩
  · rintro depth w rfl
    obtain ⟨n, s', hload, hholds⟩ := hends depth
    refine ⟨n, s', hload, hholds.registry_eq, ?_⟩
    rw [loadPackage_of_find hfind] at hload
    exact size_loadModules hload
  · rintro depth fault rfl
    exact hends depth
  · intro depth modules' members' hfind' hperm
    rw [loadPackage_of_find hfind, loadPackage_of_find hfind',
      PluginModule.ordered_of_perm hnames hperm]

/-- A module that exports two commands and something else, one with a hook in its entry
point, one that cannot be imported, and one that leaves when it is imported. -/
def ferryMembers : List (Text × PluginModule Unit) :=
  [("simple".toList, .plain (.ok ⟨.reply .null,
      [.command (.aliases [.value (.text "ping".toList) 0] none fun _ => .say "pong".toList),
        .other .null, .command (.literal "hello there".toList fun _ => .say "hi".toList)]⟩)),
    ("grouped".toList, .package (.ok .none) [(PluginModule.entryName, .plain (.ok
      ⟨.enrol [.aliases [.value (.text "grouped".toList) 0] none fun _ => .say "ok".toList]
        (.reply .null), []⟩))]),
    ("broken".toList, .plain (.error (.saying .failure "bad plugin".toList))),
    ("_private".toList, .plain (.error (.saying .exit "1".toList)))]

def ferry (members : List (Text × PluginModule Unit)) : List (Text × PluginModule Unit) :=
  [("ferry".toList, .package (.ok .none) members)]

theorem ordered_ferryMembers :
    PluginModule.ordered ferryMembers.reverse = ferryMembers.reverse.drop 1 := by
  have hpublic : (ferryMembers.reverse.filter fun entry => PluginModule.isPublic entry.1) =
      ferryMembers.reverse.drop 1 := rfl
  have hsorted : (ferryMembers.reverse.drop 1).Pairwise
      fun a b => (!Text.before b.1 a.1) = true := by
    decide
  rw [PluginModule.ordered, hpublic, List.mergeSort_of_pairwise hsorted]

theorem loadPackage_brings_ferry :
    (ferryMembers.map Prod.fst).Nodup ∧ ∃ requests s',
      loadPackage 0 (ferry ferryMembers) "ferry".toList (.ofRegistry .empty ()) = .ok 3 s' ∧
        s'.registry = Registry.empty.appended requests ∧ s'.registry.size = 3 := by
  have hfind : PluginModule.find (ferry ferryMembers) "ferry".toList =
      .ok (.package (.ok .none) ferryMembers) := rfl
  have hnames : (ferryMembers.map Prod.fst).Nodup := by decide
  have hordinary : ∀ entry ∈ ferryMembers, PluginModule.isPublic entry.1 = true →
      IsOrdinary (PluginModule.target "ferry".toList entry.1 entry.2).2 := by
    simp only [ferryMembers, List.forall_mem_cons, List.not_mem_nil, IsEmpty.forall_iff,
      implies_true, and_true]
    exact ⟨fun _ => .reply .null, fun _ => .enrol (.reply .null) _, fun _ => rfl, nofun⟩
  obtain ⟨order, requests, outcome, -, -, -, hok, herror, hperm⟩ :=
    loadPackage_brings hfind hnames hordinary (.ofRegistry .empty ())
  have hload : ∃ s', loadPackage 0 (ferry ferryMembers) "ferry".toList (.ofRegistry .empty ()) =
      .ok 3 s' := by
    rw [← hperm 0 (ferry ferryMembers.reverse) ferryMembers.reverse rfl (List.reverse_perm _),
      loadPackage_of_find rfl, ordered_ferryMembers]
    exact ⟨_, rfl⟩
  obtain ⟨s₃, hload⟩ := hload
  cases outcome with
  | error fault =>
      obtain ⟨s', hfailed, -⟩ := herror 0 fault rfl
      rw [hload] at hfailed
      cases hfailed
  | ok w =>
      obtain ⟨n, s', hloaded, hregistry, hsize⟩ := hok 0 w rfl
      obtain ⟨rfl, rfl⟩ := EStateM.Result.ok.inj (hload.symm.trans hloaded)
      exact ⟨hnames, requests, _, hload, hregistry, hsize⟩

end Session

end AliasConsole
