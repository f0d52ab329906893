import AliasConsole.Proofs.Plugins.Bindings
import AliasConsole.Proofs.Plugins.BuiltIn
import AliasConsole.Proofs.Text.Pieces

/-!
# Variables through the console

Lines that are submitted to a console with the built-in plugins act on the
variables like operations on a finite map: one step of the map for every line,
whatever else the line does and however it ends.  After any lines the commands
for variables answer as the map says.
-/

namespace AliasConsole

variable {W : Type}

/-- The part is what has been put into it last. -/
def Part.Lawful {σ : Type} (part : Part W σ) : Prop :=
  ∀ x w, part.get (part.set x w) = x

namespace Variables

/-- What a line does to a map of variables. -/
def mapAfter (map : Text → Option Text) (line : Text) : Text → Option Text :=
  match tokenize line with
  | command :: name :: rest =>
      if command ∈ setNames then Function.update map name (some (Text.joined [' '] rest))
      else if command ∈ unsetNames then Function.update map name none
      else map
  | _ => map

/-- The map after lines one after the other, from no variables on. -/
def mapAfterAll (lines : List Text) : Text → Option Text :=
  lines.foldl mapAfter fun _ => none

/-- The lines that list bindings. -/
def shownLines (bindings : List (Text × Text)) : List Text :=
  if bindings.isEmpty then ["(no variables)".toList]
  else bindings.map fun binding => bindingText binding.1 binding.2

section MapAfter

variable {map : Text → Option Text} {line command name : Text} {rest : List Text}

theorem mapAfter_of_set (hline : tokenize line = command :: name :: rest)
    (hcommand : command ∈ setNames) :
    mapAfter map line = Function.update map name (some (Text.joined [' '] rest)) := by
  rw [mapAfter, hline]
  exact if_pos hcommand

theorem mapAfter_of_unset (hline : tokenize line = command :: name :: rest)
    (hcommand : command ∈ unsetNames) : mapAfter map line = Function.update map name none := by
  have hother : command ∉ setNames := by
    intro hset
    have hdisjoint : ∀ t ∈ setNames, t ∉ unsetNames := by decide
    exact hdisjoint command hset hcommand
  rw [mapAfter, hline]
  dsimp only
  rw [if_neg hother, if_pos hcommand]

theorem mapAfter_of_leavesAlone (h : LeavesAlone (tokenize line)) : mapAfter map line = map := by
  rw [mapAfter]
  cases htokens : tokenize line with
  | nil => rfl
  | cons command rest =>
      cases rest with
      | nil => rfl
      | cons name more =>
          obtain ⟨hset, hunset⟩ := h command name more htokens
          dsimp only
          rw [if_neg hset, if_neg hunset]

/-- A line that does not leave the map alone binds or removes a variable. -/
theorem exists_of_not_leavesAlone (h : ¬ LeavesAlone (tokenize line)) :
    ∃ command name rest, tokenize line = command :: name :: rest ∧
      (command ∈ setNames ∨ command ∈ unsetNames) := by
  simp only [LeavesAlone, not_forall] at h
  obtain ⟨command, name, rest, hline, hcommand⟩ := h
  refine ⟨command, name, rest, hline, ?_⟩
  by_contra hneither
  exact hcommand (not_or.mp hneither)

/-- No name and no value of the map has a line break in it. -/
def OneLine (map : Text → Option Text) : Prop :=
  ∀ name value, map name = some value → '\n' ∉ name ∧ '\n' ∉ value

theorem notMem_of_mem_tokenize {t : Text} (ht : t ∈ tokenize line) : '\n' ∉ t := by
  intro hbreak
  have hblank := (isWord_of_mem_tokenize ht).2 '\n' hbreak
  exact absurd hblank (by decide)

theorem OneLine.mapAfter (h : OneLine map) (line : Text) : OneLine (mapAfter map line) := by
  by_cases hleaves : LeavesAlone (tokenize line)
  · rw [mapAfter_of_leavesAlone hleaves]
    exact h
  · obtain ⟨command, name, rest, hline, hset | hunset⟩ := exists_of_not_leavesAlone hleaves <;>
      intro n value hvalue
    · have hwords : ∀ t ∈ command :: name :: rest, '\n' ∉ t := fun t ht =>
        notMem_of_mem_tokenize (hline ▸ ht)
      rw [mapAfter_of_set hline hset, Function.update_apply] at hvalue
      split_ifs at hvalue with hname
      · obtain rfl := Option.some.inj hvalue
        rw [hname]
        refine ⟨hwords name (by simp), notMem_joined (by decide) fun t ht => hwords t ?_⟩
        exact List.mem_cons_of_mem _ (List.mem_cons_of_mem _ ht)
      · exact h n value hvalue
    · rw [mapAfter_of_unset hline hunset, Function.update_apply] at hvalue
      split_ifs at hvalue with hname
      exact h n value hvalue

theorem oneLine_mapAfterAll (lines : List Text) : OneLine (mapAfterAll lines) := by
  have hfrom : ∀ map, OneLine map → OneLine (lines.foldl Variables.mapAfter map) := by
    induction lines with
    | nil => exact fun _ h => h
    | cons line rest ih => exact fun map h => ih _ (h.mapAfter line)
  exact hfrom _ fun _ _ h => absurd h (by simp)

end MapAfter

/-- The listing of bindings without line breaks has one line for each of them. -/
theorem pieces_listingText {v : Variables}
    (h : ∀ binding ∈ v.bindings, '\n' ∉ binding.1 ∧ '\n' ∉ binding.2) :
    Text.pieces '\n' (listingText v) = shownLines v.bindings := by
  rw [listingText, shownLines]
  split_ifs with hempty
  · exact pieces_of_notMem (by decide)
  · refine pieces_joined (by simpa using hempty) (List.forall_mem_map.mpr fun b hb => ?_)
    obtain ⟨hname, hvalue⟩ := h b hb
    simp [bindingText, hname, hvalue]

end Variables

namespace Session

/-- The commands for variables answer as the map says: `get` shows a bound
variable and fails on another one, `unset` removes a bound variable and is not
found for another one, and `vars` prints one line for each binding of the map,
by increasing name, at every depth. -/
structure AnswersAs (s : Session W) (map : Text → Option Text) : Prop where
  get : ∀ depth line command name rest, tokenize line = command :: name :: rest →
    command ∈ Variables.getNames → ∃ s', submit depth line s =
      .ok (match map name with
        | some value => ⟨.ok, .text (bindingText name value)⟩
        | none => ⟨.error, .text outOfRangeLine⟩) s'
  unset : ∀ depth line command name rest, tokenize line = command :: name :: rest →
    command ∈ Variables.unsetNames → ∃ s', submit depth line s =
      .ok (match map name with
        | some _ => ⟨.ok, .text ("unset ".toList ++ name)⟩
        | none => ⟨.notFound, .text notFoundLine⟩) s'
  vars : ∃ bindings, Variables.Ordered bindings ∧
    (∀ name value, (name, value) ∈ bindings ↔ map name = some value) ∧
    ∀ depth line command rest, tokenize line = command :: rest → command ∈ Variables.varsNames →
      ∃ s' message, submit depth line s = .ok ⟨.ok, .text message⟩ s' ∧
        Text.pieces '\n' message = Variables.shownLines bindings ∧
        s'.output = ((Variables.shownLines bindings).map Value.text).reverse ++
          ((Text.pieces '\n' (echo line)).map Value.text).reverse ++ s.output

/-- The session after lines one after the other; a line that ends in a fault is
followed by the next one. -/
def submitAll (depth : ℕ) (lines : List Text) (s : Session W) : Session W :=
  lines.foldl (fun s line => sessionAfter (submit depth line) s) s

end Session

namespace BuiltIn

open Session

variable {host : Host W} {part : Part W Variables} {started : Seconds}
  {map : Text → Option Text} {s : Session W} {nested : Text → Action W Result}
  {line command name : Text} {rest : List Text} {depth : ℕ}

/-- The console has the commands of the built-in plugins, and its variables
represent the map. -/
def Stores (host : Host W) (part : Part W Variables) (started : Seconds)
    (map : Text → Option Text) : Session W → Prop :=
  Holds (registry host part started) fun w => (part.get w).Represents map

theorem ne_nil_of_tokenize {first : Text} (hline : tokenize line = first :: rest) : line ≠ [] := by
  rintro rfl
  cases hline

section Commands

variable (h : Stores host part started map s)

include h

theorem Stores.callback?_eq {index : ℕ} {c : Command W}
    (hc : (registry host part started).commands[index]? = some c) :
    s.registry.callback? (.aliases index) = some c.callback := by
  rw [h.registry_eq, Registry.callback?, hc, Option.map_some]

theorem Stores.resolve_of_name {index : ℕ} {c : Command W} {first : Text}
    (hc : (registry host part started).commands[index]? = some c) (hfixed : c.fixed = 1)
    (hline : tokenize line = first :: rest) (hfirst : first ∈ c.callNames) :
    s.registry.resolve (tokenize line) line s.world = .ok (some (.aliases index)) s.world := by
  rw [h.registry_eq]
  exact BuiltIn.resolve_of_name hc hfixed hline hfirst s.world

/-- A line that is called by the name of a command with one fixed token is
answered with what the script of the command says. -/
theorem submitWith_of_name {index : ℕ} {c : Command W} {first : Text}
    (hc : (registry host part started).commands[index]? = some c) (hfixed : c.fixed = 1)
    (hline : tokenize line = first :: rest) (hfirst : first ∈ c.callNames) {t : Text}
    {s' : Session W} (hperform : perform nested (c.callback (first :: rest))
      (dispatched line (.aliases index) s.world s) = .ok (.text t) s') :
    submitWith nested line s = .ok ⟨.ok, .text t⟩ (printed t s') := by
  rw [← hline] at hperform
  exact submitWith_of_reply (ne_nil_of_tokenize hline)
    (Stores.resolve_of_name h hc hfixed hline hfirst) (Stores.callback?_eq h hc) hperform

theorem submitWith_set (nested : Text → Action W Result) (hlawful : part.Lawful)
    (hline : tokenize line = command :: name :: rest) (hcommand : command ∈ Variables.setNames) :
    ∃ s', submitWith nested line s =
        .ok ⟨.ok, .text (bindingText name (Text.joined [' '] rest))⟩ s' ∧
      Stores host part started (Function.update map name (some (Text.joined [' '] rest))) s' := by
  refine ⟨_, submitWith_of_name h (getElem?_commands_set host part started) rfl hline hcommand
    (perform_world _ _ _), h.registry_eq, ?_⟩
  change (part.get (part.modify (Variables.set name _) s.world)).Represents _
  rw [Part.modify, hlawful]
  exact h.world.set name _

theorem submitWith_get (hline : tokenize line = command :: name :: rest)
    (hcommand : command ∈ Variables.getNames) :
    ∃ s', submitWith nested line s =
      .ok (match map name with
        | some value => ⟨.ok, .text (bindingText name value)⟩
        | none => ⟨.error, .text outOfRangeLine⟩) s' := by
  have hlook : (part.get s.world).get? name = map name := h.world.get?_eq name
  have hc := getElem?_commands_get host part started
  have hscript : perform nested (Variables.getCommand part (command :: name :: rest))
      (dispatched line (.aliases 6) s.world s) =
      perform nested (match map name with
        | some value => .say (bindingText name value)
        | none => .fail (.saying .missingKey name)) (dispatched line (.aliases 6) s.world s) := by
    rw [← hlook]
    exact perform_world _ _ _
  cases hvalue : map name with
  | some value =>
      rw [hvalue] at hscript
      exact ⟨_, submitWith_of_name h hc rfl hline hcommand hscript⟩
  | none =>
      rw [hvalue, ← hline] at hscript
      exact ⟨_, submitWith_of_fault (ne_nil_of_tokenize hline)
        (Stores.resolve_of_name h hc rfl hline hcommand) (Stores.callback?_eq h hc) hscript rfl⟩

theorem submitWith_unset (nested : Text → Action W Result) (hlawful : part.Lawful)
    (hline : tokenize line = command :: name :: rest)
    (hcommand : command ∈ Variables.unsetNames) :
    ∃ s', submitWith nested line s =
        .ok (match map name with
          | some _ => ⟨.ok, .text ("unset ".toList ++ name)⟩
          | none => ⟨.notFound, .text notFoundLine⟩) s' ∧
      Stores host part started (Function.update map name none) s' := by
  have hresolve := resolve_unset host part started hline hcommand s.world
  rw [← h.registry_eq] at hresolve
  have hlook : (part.get s.world).get? name = map name := h.world.get?_eq name
  cases hvalue : map name with
  | some value =>
      rw [if_pos (h.world.mem_names_iff.mpr ⟨value, hvalue⟩)] at hresolve
      have hcallback := Stores.callback?_eq h (getElem?_commands_unset host part started)
      have hscript : perform nested (Variables.unsetCommand part (command :: name :: rest))
          (dispatched line (.aliases 7) s.world s) =
          perform nested (match (part.get s.world).get? name with
            | some _ => .world (part.modify (Variables.unset name)) fun _ =>
                .say ("unset ".toList ++ name)
            | none => .fail (.saying .missingKey name))
            (dispatched line (.aliases 7) s.world s) :=
        perform_world _ _ _
      rw [hlook, hvalue] at hscript
      have hperform : perform nested (Variables.unsetCommand part (tokenize line))
          (dispatched line (.aliases 7) s.world s) = .ok (.text ("unset ".toList ++ name))
            { dispatched line (.aliases 7) s.world s with
              world := part.modify (Variables.unset name) s.world } := by
        rw [hline]
        exact hscript.trans (perform_world _ _ _)
      refine ⟨_, submitWith_of_reply (ne_nil_of_tokenize hline) hresolve hcallback hperform,
        h.registry_eq, ?_⟩
      change (part.get (part.modify (Variables.unset name) s.world)).Represents _
      rw [Part.modify, hlawful]
      exact h.world.unset name
  | none =>
      have hfree : name ∉ (part.get s.world).names := by
        intro hmem
        obtain ⟨value, hbound⟩ := h.world.mem_names_iff.mp hmem
        rw [hvalue] at hbound
        cases hbound
      rw [if_neg hfree] at hresolve
      rw [submitWith_of_ne_nil (ne_nil_of_tokenize hline), hresolve]
      refine ⟨_, rfl, h.registry_eq, ?_⟩
      rw [← hvalue, Function.update_eq_self]
      exact h.world

theorem submitWith_vars (hline : tokenize line = command :: rest)
    (hcommand : command ∈ Variables.varsNames) :
    submitWith nested line s = .ok ⟨.ok, .text (Variables.listingText (part.get s.world))⟩
      (printed (Variables.listingText (part.get s.world))
        (dispatched line (.aliases 8) s.world s)) :=
  submitWith_of_name h (getElem?_commands_vars host part started) rfl hline hcommand
    (perform_world _ _ _)

end Commands

section Run

variable (hlawful : part.Lawful) (hnow : part.KeptBy host.now)
  (hclock : part.KeptBy host.monotonic)

include hlawful hnow hclock

theorem Stores.submitWith (h : Stores host part started map s) (line : Text) :
    Stores host part started (Variables.mapAfter map line)
      (sessionAfter (submitWith nested line) s) := by
  by_cases hleaves : Variables.LeavesAlone (tokenize line)
  · rw [Variables.mapAfter_of_leavesAlone hleaves]
    obtain ⟨found, hresolve, hfound⟩ := exists_resolve host part started line s.world
    refine Holds.submitWith h hresolve h.world ?_
    rintro selection callback rfl hcallback
    cases selection with
    | aliases index =>
        obtain ⟨c, hc, haccepts⟩ := hfound index rfl
        rw [Registry.callback?, hc, Option.map_some] at hcallback
        obtain rfl := Option.some.inj hcallback
        exact keeps_of_accepts hnow hclock (fun v => v.Represents map)
          (List.mem_of_getElem? hc) haccepts hleaves
    | literal index =>
        obtain ⟨l, hl, rfl⟩ := Option.map_eq_some_iff.mp hcallback
        exact keeps_of_mem_literals (List.mem_of_getElem? hl) _ _
  · obtain ⟨command, name, rest, hline, hset | hunset⟩ :=
      Variables.exists_of_not_leavesAlone hleaves
    · obtain ⟨s', hok, hstores⟩ := submitWith_set h nested hlawful hline hset
      rw [Variables.mapAfter_of_set hline hset, sessionAfter_of_ok hok]
      exact hstores
    · obtain ⟨s', hok, hstores⟩ := submitWith_unset h nested hlawful hline hunset
      rw [Variables.mapAfter_of_unset hline hunset, sessionAfter_of_ok hok]
      exact hstores

/-- Lines one after the other take the variables through the map of all lines. -/
theorem Stores.submitAll (h : Stores host part started map s) (lines : List Text) :
    Stores host part started (lines.foldl Variables.mapAfter map) (submitAll depth lines s) := by
  induction lines generalizing map s with
  | nil => exact h
  | cons line rest ih => exact ih (h.submitWith hlawful hnow hclock line)

end Run

/-- A console whose variables represent a map answers as the map says. -/
theorem Stores.answersAs (h : Stores host part started map s) (hlawful : part.Lawful)
    (hmap : Variables.OneLine map) : s.AnswersAs map := by
  refine ⟨?_, ?_, ?_⟩
  · intro depth line command name rest hline hcommand
    exact submitWith_get h hline hcommand
  · intro depth line command name rest hline hcommand
    obtain ⟨s', hok, -⟩ := submitWith_unset h _ hlawful hline hcommand
    exact ⟨s', hok⟩
  · refine ⟨(part.get s.world).bindings, h.world.ordered,
      fun name value => h.world.mem_bindings_iff, fun depth line command rest hline hcommand => ?_⟩
    have hpieces := Variables.pieces_listingText (v := part.get s.world) fun b hb =>
      hmap b.1 b.2 (h.world.mem_bindings_iff.mp hb)
    refine ⟨_, _, submitWith_vars h hline hcommand, hpieces, ?_⟩
    rw [printed, hpieces, List.append_assoc]
    rfl

/-- After any lines that are submitted to a fresh console with the built-in
plugins, the commands for variables answer as the map of all lines says.  The
variables are a part of the world that neither clock changes. -/
theorem exists_load_answersAs (hlawful : part.Lawful) (hnow : part.KeptBy host.now)
    (hclock : part.KeptBy host.monotonic) {w w' : W} (hempty : part.get w = .empty)
    (hstarts : host.monotonic w = .ok started w') (height : Int) (banner : Option Text)
    (depth : ℕ) :
    ∃ count s, (do
        Session.start height banner
        Session.loadPackage depth (builtInModules host part) "plugins".toList)
          (.ofRegistry .empty w) = .ok count s ∧
      ∀ depth' lines, (submitAll depth' lines s).AnswersAs (Variables.mapAfterAll lines) := by
  obtain ⟨count, s, hload, hholds⟩ := exists_load host part started height banner hstarts
  refine ⟨count, s, hload, fun depth' lines => ?_⟩
  have hfresh : part.get s.world = .empty := by
    have hkept := hclock w
    rw [hstarts] at hkept
    rw [hholds.world, ← hempty]
    exact hkept
  have hstores : Stores host part started (fun _ => none) s := by
    refine ⟨hholds.registry_eq, ?_⟩
    rw [hfresh]
    exact .empty
  exact (hstores.submitAll hlawful hnow hclock lines).answersAs hlawful
    (Variables.oneLine_mapAfterAll lines)

/-- A host whose clocks stand still, in a world of variables only. -/
def standing : Host Variables :=
  { user := "user".toList
    node := "node".toList
    version := none
    now := pure (⟨2024, 2, 29⟩, ⟨12, 0, 0, 0⟩)
    monotonic := pure (.whole 0) }

/-- The variables as a part of a world that is nothing else. -/
def whole : Part Variables Variables := ⟨id, fun v _ => v⟩

theorem exists_load_answersAs_standing :
    whole.Lawful ∧ whole.KeptBy standing.now ∧ whole.KeptBy standing.monotonic ∧
      whole.get .empty = .empty ∧ standing.monotonic .empty = .ok (.whole 0) .empty ∧
      ∃ count s, (do
          Session.start 10 (some "hello".toList)
          Session.loadPackage 0 (builtInModules standing whole) "plugins".toList)
            (.ofRegistry .empty .empty) = .ok count s ∧
        ∀ depth' lines, (submitAll depth' lines s).AnswersAs (Variables.mapAfterAll lines) := by
  have hlawful : whole.Lawful := fun _ _ => rfl
  have hnow : whole.KeptBy standing.now := fun _ => rfl
  have hclock : whole.KeptBy standing.monotonic := fun _ => rfl
  exact ⟨hlawful, hnow, hclock, rfl, rfl,
    exists_load_answersAs hlawful hnow hclock rfl rfl 10 (some "hello".toList) 0⟩

end BuiltIn

end AliasConsole
