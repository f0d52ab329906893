import AliasConsole.Proofs.Plugins.Loading
import AliasConsole.Proofs.Resolution.Dispatch

/-!
# The commands of the built-in plugins

All commands of a console with the built-in plugins are called by names, and no
two share one, so that a line always resolves by its first token.  Only two of
them change the variables, and only when they are given a name.
-/

namespace AliasConsole

variable {W : Type}

/-- The reading leaves the part as it is, however it ends. -/
def Part.KeptBy {σ α : Type} (part : Part W σ) (read : Reads W α) : Prop :=
  ∀ w, part.get (match read w with
    | .ok _ after => after
    | .error _ after => after) = part.get w

theorem Part.KeptBy.keeps_reading {σ α : Type} {part : Part W σ} {read : Reads W α}
    (h : part.KeptBy read) (Q : σ → Prop) {next : α → Script W}
    (hnext : ∀ a, (next a).Keeps fun w => Q (part.get w)) :
    (Script.reading read next).Keeps fun w => Q (part.get w) := by
  refine .world (fun w hw => ?_) (fun w _ => ?_)
  · exact (congrArg Q (h w)).mpr hw
  · cases read w with
    | ok a after => exact hnext a
    | error fault after => exact .fail fault

namespace Variables

/-- The commands that bind a variable. -/
def setNames : List Text := ["set".toList, "let".toList]

/-- The commands that show a variable. -/
def getNames : List Text := ["get".toList, "print".toList]

/-- The commands that remove a variable. -/
def unsetNames : List Text := ["unset".toList, "del".toList]

/-- The commands that list all variables. -/
def varsNames : List Text := ["vars".toList, "variables".toList]

/-- The tokens neither bind nor remove a variable. -/
def LeavesAlone (tokens : List Text) : Prop :=
  ∀ command name rest, tokens = command :: name :: rest →
    command ∉ setNames ∧ command ∉ unsetNames

end Variables

namespace BuiltIn

variable (host : Host W) (part : Part W Variables) (started : Seconds)

theorem registry_eq :
    registry host part started =
      { commands :=
          [⟨[.fixed [["list".toList]]], 1, fun _ => .listing Script.say⟩,
            ⟨[.fixed [["echo".toList, "say".toList]]], 1, Host.echoCommand⟩,
            ⟨[.fixed [["whoami".toList, "user".toList]]], 1, host.whoamiCommand⟩,
            ⟨[.fixed [["time".toList, "date".toList, "now".toList]]], 1, host.timeCommand⟩,
            ⟨[.fixed [["uptime".toList]]], 1, host.uptimeCommand started⟩,
            ⟨[.fixed [Variables.setNames], Variables.liveNames part], 1,
              Variables.setCommand part⟩,
            ⟨[.fixed [Variables.getNames], Variables.liveNames part], 1,
              Variables.getCommand part⟩,
            ⟨[.fixed [Variables.unsetNames], Variables.liveNames part], 2,
              Variables.unsetCommand part⟩,
            ⟨[.fixed [Variables.varsNames]], 1, Variables.varsCommand part⟩,
            ⟨[.fixed [["math".toList, "calc".toList]],
                .fixed (Operation.all.map Operation.spellings)], 2,
              fun tokens => .answer (arithmetic tokens)⟩]
        literals :=
          [⟨"exit".toList, Host.leaveCommand⟩, ⟨"quit".toList, Host.leaveCommand⟩,
            ⟨"version".toList, host.versionCommand⟩] } :=
  rfl

theorem getElem?_commands_set :
    (registry host part started).commands[5]? =
      some ⟨[.fixed [Variables.setNames], Variables.liveNames part], 1,
        Variables.setCommand part⟩ := by
  rw [registry_eq]
  rfl

theorem getElem?_commands_get :
    (registry host part started).commands[6]? =
      some ⟨[.fixed [Variables.getNames], Variables.liveNames part], 1,
        Variables.getCommand part⟩ := by
  rw [registry_eq]
  rfl

theorem getElem?_commands_unset :
    (registry host part started).commands[7]? =
      some ⟨[.fixed [Variables.unsetNames], Variables.liveNames part], 2,
        Variables.unsetCommand part⟩ := by
  rw [registry_eq]
  rfl

theorem getElem?_commands_vars :
    (registry host part started).commands[8]? =
      some ⟨[.fixed [Variables.varsNames]], 1, Variables.varsCommand part⟩ := by
  rw [registry_eq]
  rfl

theorem map_callNames_commands :
    (registry host part started).commands.map Command.callNames =
      [["list".toList], ["echo".toList, "say".toList], ["whoami".toList, "user".toList],
        ["time".toList, "date".toList, "now".toList], ["uptime".toList],
        Variables.setNames, Variables.getNames, Variables.unsetNames, Variables.varsNames,
        ["math".toList, "calc".toList]] := by
  rw [registry_eq]
  rfl

theorem callsByName : (registry host part started).CallsByName := by
  constructor
  · intro c hc
    rw [registry_eq] at hc
    simp only [List.mem_cons, List.not_mem_nil, or_false] at hc
    rcases hc with rfl | rfl | rfl | rfl | rfl | rfl | rfl | rfl | rfl | rfl <;>
      exact ⟨rfl, Nat.succ_pos _⟩
  · have hnames : ((registry host part started).commands.map Command.callNames).Pairwise
        fun a b => ∀ name ∈ a, name ∉ b := by
      rw [map_callNames_commands]
      decide
    exact List.pairwise_map.mp hnames

variable {host part started}

theorem exists_accepts {c : Command W} (hc : c ∈ (registry host part started).commands)
    (tokens : List Text) (w : W) : ∃ accepted, c.accepts tokens w = .ok accepted w := by
  refine ((callsByName host part started).isCalled c hc).exists_accepts ?_ tokens
  rw [registry_eq] at hc
  simp only [List.mem_cons, List.not_mem_nil, or_false] at hc
  rcases hc with rfl | rfl | rfl | rfl | rfl | rfl | rfl | rfl | rfl | rfl
  case inr.inr.inr.inr.inr.inr.inr.inl => exact Or.inr ⟨rfl, _, rfl⟩
  case inr.inr.inr.inr.inr.inr.inr.inr.inr => exact Or.inr ⟨rfl, _, rfl⟩
  all_goals exact Or.inl rfl

variable (host part started) in
theorem exists_resolve (line : Text) (w : W) :
    ∃ found, (registry host part started).resolve (tokenize line) line w = .ok found w ∧
      ∀ index, found = some (.aliases index) → ∃ c,
        (registry host part started).commands[index]? = some c ∧
          c.accepts (tokenize line) w = .ok true w := by
  obtain ⟨found, hfound, hindex⟩ := (callsByName host part started).exists_resolveExact
    (tokenize line) fun c hc => exists_accepts hc (tokenize line) w
  refine ⟨_, Registry.resolve_eq_ok_iff.mpr ⟨found, hfound, rfl⟩, fun index hselected => ?_⟩
  cases found with
  | none =>
      obtain ⟨_, -, hliteral⟩ := Option.map_eq_some_iff.mp hselected
      cases hliteral
  | some index' =>
      obtain rfl : index' = index := Selection.aliases.inj (Option.some.inj hselected)
      exact hindex index' rfl

/-- A line resolves to the command that its first token names, if one fixed
token is all that it has. -/
theorem resolve_of_name {index : ℕ} {c : Command W} {line first : Text} {rest : List Text}
    (hc : (registry host part started).commands[index]? = some c) (hfixed : c.fixed = 1)
    (hline : tokenize line = first :: rest) (hfirst : first ∈ c.callNames) (w : W) :
    (registry host part started).resolve (tokenize line) line w =
      .ok (some (.aliases index)) w := by
  have hcalls := callsByName host part started
  have haccepts : c.accepts (first :: rest) w = .ok true w :=
    (hcalls.isCalled c (List.mem_of_getElem? hc)).accepts_of_mem hfixed hfirst
  rw [hline]
  exact Registry.resolve_eq_ok_iff.mpr
    ⟨some index, hcalls.resolveExact_of_mem hc hfirst haccepts, rfl⟩

/-- No literal is called by the name of a command for variables. -/
theorem resolveLiteral_unset {line first : Text} {rest : List Text}
    (hline : tokenize line = first :: rest) (hfirst : first ∈ Variables.unsetNames) :
    (registry host part started).resolveLiteral line = none := by
  refine Registry.resolveLiteral_eq_none hline ?_
  rw [registry_eq]
  have hwords : ∀ t ∈ ["exit".toList, "quit".toList, "version".toList],
      IsWord t ∧ t ∉ Variables.unsetNames := by decide
  intro l hl
  have htext : l.text ∈ ["exit".toList, "quit".toList, "version".toList] :=
    List.mem_map_of_mem (f := Literal.text) hl
  obtain ⟨hword, hne⟩ := hwords l.text htext
  exact ⟨hword, fun h => hne (h ▸ hfirst)⟩

variable (host part started) in
/-- A line that removes a variable resolves to the command for it if there is
such a variable, and to nothing otherwise. -/
theorem resolve_unset {line first name : Text} {rest : List Text}
    (hline : tokenize line = first :: name :: rest) (hfirst : first ∈ Variables.unsetNames)
    (w : W) :
    (registry host part started).resolve (tokenize line) line w =
      .ok (if name ∈ (part.get w).names then some (.aliases 7) else none) w := by
  have hcalls := callsByName host part started
  have hc := getElem?_commands_unset host part started
  have hany : (((part.get w).names.map fun n => [n]).any fun group => group.contains name) =
      decide (name ∈ (part.get w).names) := by
    rw [Bool.eq_iff_iff, decide_eq_true_iff, List.any_eq_true]
    simp
  have haccepts : Command.accepts ⟨[.fixed [Variables.unsetNames], Variables.liveNames part], 2,
      Variables.unsetCommand part⟩ (first :: name :: rest) w =
      .ok (decide (name ∈ (part.get w).names)) w := by
    rw [← hany]
    exact (hcalls.isCalled _ (List.mem_of_getElem? hc)).accepts_pair rfl hfirst rfl
  have hexact := hcalls.resolveExact_of_mem hc hfirst haccepts
  rw [hline]
  refine Registry.resolve_eq_ok_iff.mpr ⟨_, hexact, ?_⟩
  by_cases hname : name ∈ (part.get w).names
  · simp only [hname, decide_true, if_true]
    rfl
  · simp only [hname, decide_false, if_false, Bool.false_eq_true]
    rw [Registry.select, resolveLiteral_unset hline hfirst]
    rfl

section Keeps

variable (hnow : part.KeptBy host.now) (hclock : part.KeptBy host.monotonic)
  (Q : Variables → Prop)

include hnow hclock

/-- A command that accepts tokens which leave the variables alone keeps whatever
holds of the variables. -/
theorem keeps_of_accepts {c : Command W} (hc : c ∈ (registry host part started).commands)
    {tokens : List Text} {w : W} (haccepts : c.accepts tokens w = .ok true w)
    (hleaves : Variables.LeavesAlone tokens) :
    (c.callback tokens).Keeps fun w => Q (part.get w) := by
  obtain ⟨hlength, first, hfirst, hhead⟩ :=
    ((callsByName host part started).isCalled c hc).of_accepts haccepts
  obtain ⟨rest, rfl⟩ := List.head?_eq_some_iff.mp hhead
  rw [registry_eq] at hc
  simp only [List.mem_cons, List.not_mem_nil, or_false] at hc
  rcases hc with rfl | rfl | rfl | rfl | rfl | rfl | rfl | rfl | rfl | rfl
  · exact .listing fun t => .reply _
  · exact .reply _
  · exact .reply _
  · exact hnow.keeps_reading Q fun _ => .reply _
  · refine hclock.keeps_reading Q fun now => ?_
    cases (started.since now).truncated >>= durationText (some Decimal.maxIntegerDigits) with
    | ok duration => exact .reply _
    | error fault => exact .fail fault
  · cases rest with
    | nil => exact .fail _
    | cons name more => exact absurd hfirst (hleaves first name more rfl).1
  · cases rest with
    | nil => exact .fail _
    | cons name more =>
        refine .world (fun _ hw => hw) fun w _ => ?_
        cases (part.get w).get? name with
        | none => exact .fail _
        | some value => exact .reply _
  · cases rest with
    | nil => exact absurd hlength (by simp)
    | cons name more => exact absurd hfirst (hleaves first name more rfl).2
  · exact .world (fun _ hw => hw) fun w _ => .reply _
  · change (Script.answer (arithmetic (first :: rest))).Keeps _
    cases arithmetic (first :: rest) with
    | ok t => exact .reply _
    | error fault => exact .fail fault

end Keeps

theorem keeps_of_mem_literals {l : Literal W} (hl : l ∈ (registry host part started).literals)
    (P : W → Prop) (tokens : List Text) : (l.callback tokens).Keeps P := by
  rw [registry_eq] at hl
  simp only [List.mem_cons, List.not_mem_nil, or_false] at hl
  rcases hl with rfl | rfl | rfl
  · exact .fail _
  · exact .fail _
  · exact .reply _

end BuiltIn

end AliasConsole
