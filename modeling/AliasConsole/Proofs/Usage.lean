import AliasConsole.Proofs.Plugins.Contributions
import AliasConsole.Proofs.Session.Leaving
import AliasConsole.Proofs.Text.Pieces

/-!
# The list of all commands

A usage line shows the names of a command: for each fixed position the first aliases of
its groups.  The console has a command that answers with the usage lines of all alias
commands and then with the texts of all literals.  Without line ends in them, the answer
is printed as one output line for each command.  What is typed as a usage line shows it is
resolved to its command or to one before it, unless a live source fails on the way.
-/

namespace AliasConsole

variable {W : Type}

/-! ## Usage lines -/

section SlotUsages

variable {placeholder : Text} {fixed : Int}

theorem length_slotUsages (position : ℕ) (slots : List (Candidates W)) :
    (slotUsages placeholder fixed position slots).length = slots.length := by
  induction slots generalizing position with
  | nil => rfl
  | cons slot rest ih => rw [slotUsages, List.length_cons, ih, List.length_cons]

theorem getElem?_slotUsages (position : ℕ) (slots : List (Candidates W)) (p : ℕ) :
    (slotUsages placeholder fixed position slots)[p]? =
      slots[p]?.map (slotUsage placeholder (((position + p : ℕ) : Int) < fixed)) := by
  induction slots generalizing position p with
  | nil => rfl
  | cons slot rest ih =>
      rw [slotUsages]
      cases p with
      | zero => rfl
      | succ p =>
          rw [List.getElem?_cons_succ, List.getElem?_cons_succ, ih, Nat.add_right_comm,
            Nat.add_assoc]

end SlotUsages

theorem slotUsage_of_names (placeholder : Text) {groups : List AliasGroup}
    (h : ∃ aliases ∈ groups, aliases ≠ []) :
    slotUsage (W := W) placeholder true (.fixed groups) =
      Text.joined ['/'] (canonicalAliases groups) := by
  obtain ⟨aliases, haliases, hne⟩ := h
  obtain ⟨name, rest, rfl⟩ := List.exists_cons_of_ne_nil hne
  have hname : name ∈ canonicalAliases groups :=
    List.mem_filterMap.mpr ⟨name :: rest, haliases, rfl⟩
  rw [slotUsage, shownAliases, if_pos rfl]
  cases hnames : canonicalAliases groups with
  | nil => exact absurd hname (by simp [hnames])
  | cons first more => rfl

/-- Without a name to show, the usage line has a placeholder. -/
theorem slotUsage_of_not_shown (placeholder : Text) {isFixedPosition : Bool}
    {slot : Candidates W}
    (h : ∀ groups, slot = .fixed groups → isFixedPosition = true → ∀ aliases ∈ groups,
      aliases = []) :
    slotUsage placeholder isFixedPosition slot = placeholderText placeholder := by
  have hshown : shownAliases isFixedPosition slot = [] := by
    cases slot with
    | live read => rfl
    | fixed groups =>
        rw [shownAliases]
        split_ifs with hfixed
        · refine List.filterMap_eq_nil_iff.mpr fun aliases haliases => ?_
          rw [h groups rfl hfixed aliases haliases]
          rfl
        · rfl
  rw [slotUsage, hshown]

namespace Command

/-- The position is fixed, and its candidates are fixed and have a group with an alias. -/
structure ShowsNamesAt (c : Command W) (position : ℕ) (groups : List AliasGroup) : Prop where
  lt_fixed : position < c.fixed
  slot_eq : c.slots[position]? = some (.fixed groups)
  exists_ne_nil : ∃ aliases ∈ groups, aliases ≠ []

/-- The parts of a usage line, one for each position.  A fixed position that shows names
has the first aliases of its groups, any other position a placeholder. -/
structure IsUsage (c : Command W) (parts : List Text) : Prop where
  usage_eq : c.usage = Text.joined [' '] parts
  length_eq : parts.length = c.slots.length
  names : ∀ position groups, c.ShowsNamesAt position groups →
    parts[position]? = some (Text.joined ['/'] (groups.filterMap List.head?))
  free : ∀ position < c.slots.length, (∀ groups, ¬c.ShowsNamesAt position groups) →
    parts[position]? = some "<arg>".toList

/-- The tokens are as many as the command fixes, or more, and at each fixed position there
is one of the names that the usage line shows. -/
structure IsCalledAsShown (c : Command W) (tokens : List Text) : Prop where
  fixed_le : c.fixed ≤ tokens.length
  shown : ∀ position < c.fixed, ∃ groups token, c.ShowsNamesAt position groups ∧
    tokens[position]? = some token ∧ ∃ aliases ∈ groups, aliases.head? = some token

variable {c : Command W}

theorem exists_isUsage (c : Command W) : ∃ parts, c.IsUsage parts := by
  refine ⟨slotUsages defaultPlaceholder c.fixed 0 c.slots, rfl, length_slotUsages 0 c.slots,
    ?_, ?_⟩
  · rintro position groups ⟨hposition, hslot, hnames⟩
    have hfixed : decide (((0 + position : ℕ) : Int) < c.fixed) = true :=
      decide_eq_true (by omega)
    rw [getElem?_slotUsages, hslot, Option.map_some, hfixed, slotUsage_of_names _ hnames]
    rfl
  · intro position hposition hnone
    have hslot := List.getElem?_eq_getElem hposition
    rw [getElem?_slotUsages, hslot, Option.map_some, slotUsage_of_not_shown]
    · rfl
    · rintro groups hgroups hfixed aliases haliases
      by_contra hne
      have hfixed : position < c.fixed := by
        have hlt := of_decide_eq_true hfixed
        omega
      exact hnone groups ⟨hfixed, hslot.trans (congrArg some hgroups), aliases, haliases, hne⟩

theorem acceptsFrom_of_offered {tokens : List Text} {count position : ℕ}
    (h : ∀ p, position ≤ p → p < position + count → ∃ groups token,
      c.slots[p]? = some (.fixed groups) ∧ tokens[p]? = some token ∧
        ∃ aliases ∈ groups, token ∈ aliases) (w : W) :
    c.acceptsFrom tokens count position w = .ok true w := by
  induction count generalizing position with
  | zero => rfl
  | succ count ih =>
      obtain ⟨groups, token, hslot, htoken, hoffered⟩ := h position le_rfl (by omega)
      have hany : groups.any (·.contains token) = true := by simpa using hoffered
      have hgroups : c.groupsAt position w = .ok groups w := by
        rw [groupsAt_of_getElem? hslot]
        rfl
      rw [acceptsFrom, bind_of_ok hgroups, htoken]
      dsimp only
      rw [if_pos hany]
      exact ih fun p hle hlt => h p (by omega) (by omega)

/-- A command accepts what its usage line shows. -/
theorem IsCalledAsShown.alwaysGives_accepts {tokens : List Text} (h : c.IsCalledAsShown tokens) :
    AlwaysGives (c.accepts tokens) true := by
  intro w
  refine ⟨w, ?_⟩
  rw [accepts, if_neg (not_lt.mpr h.fixed_le)]
  apply acceptsFrom_of_offered
  intro p _ hlt
  obtain ⟨groups, token, hshown, htoken, aliases, haliases, hhead⟩ := h.shown p (by omega)
  exact ⟨groups, token, hshown.slot_eq, htoken, aliases, haliases, List.mem_of_head? hhead⟩

theorem isCalledAsShown_of_head {groups : List AliasGroup} {aliases : AliasGroup} {name : Text}
    (hfixed : c.fixed = 1) (hslot : c.slots[0]? = some (.fixed groups))
    (haliases : aliases ∈ groups) (hname : aliases.head? = some name) (rest : List Text) :
    c.IsCalledAsShown (name :: rest) := by
  refine ⟨by rw [hfixed, List.length_cons]; omega, fun position hposition => ?_⟩
  obtain rfl : position = 0 := by omega
  have hne : aliases ≠ [] := List.ne_nil_of_mem (List.mem_of_head? hname)
  exact ⟨groups, name, ⟨hposition, hslot, aliases, haliases, hne⟩, rfl, aliases, haliases, hname⟩

end Command

/-! ## The listing -/

/-- The groups that a position always accepts. -/
def Candidates.fixedGroups : Candidates W → List AliasGroup
  | fixed groups => groups
  | live _ => []

namespace Registry

/-- No fixed alias and no literal has a line end in it. -/
structure HasNoLineEnds (r : Registry W) : Prop where
  commands : ∀ c ∈ r.commands, ∀ slot ∈ c.slots, ∀ aliases ∈ slot.fixedGroups,
    ∀ spelling ∈ aliases, '\n' ∉ spelling
  literals : ∀ l ∈ r.literals, '\n' ∉ l.text

theorem notMem_slotUsage {isFixedPosition : Bool} {slot : Candidates W}
    (h : ∀ aliases ∈ slot.fixedGroups, ∀ spelling ∈ aliases, '\n' ∉ spelling) :
    '\n' ∉ slotUsage defaultPlaceholder isFixedPosition slot := by
  have hshown : ∀ name ∈ shownAliases isFixedPosition slot, '\n' ∉ name := by
    intro name hname
    cases slot with
    | live read => cases hname
    | fixed groups =>
        rw [shownAliases] at hname
        split_ifs at hname
        · obtain ⟨aliases, haliases, hhead⟩ := List.mem_filterMap.mp hname
          exact h aliases haliases name (List.mem_of_head? hhead)
        · cases hname
  rw [slotUsage]
  split
  · decide
  · exact notMem_joined (by decide) hshown

theorem notMem_usage {c : Command W}
    (h : ∀ slot ∈ c.slots, ∀ aliases ∈ slot.fixedGroups, ∀ spelling ∈ aliases,
      '\n' ∉ spelling) : '\n' ∉ c.usage := by
  refine notMem_joined (by decide) fun part hpart => ?_
  obtain ⟨position, hposition⟩ := List.mem_iff_getElem?.mp hpart
  rw [getElem?_slotUsages] at hposition
  obtain ⟨slot, hslot, rfl⟩ := Option.map_eq_some_iff.mp hposition
  exact notMem_slotUsage (h slot (List.mem_of_getElem? hslot))

variable {r : Registry W}

theorem HasNoLineEnds.notMem_of_mem_lines (h : r.HasNoLineEnds) :
    ∀ line ∈ r.lines, '\n' ∉ line := by
  intro line hline
  rcases List.mem_append.mp hline with hline | hline
  · obtain ⟨c, hc, rfl⟩ := List.mem_map.mp hline
    exact notMem_usage (h.commands c hc)
  · obtain ⟨l, hl, rfl⟩ := List.mem_map.mp hline
    exact h.literals l hl

theorem length_lines (r : Registry W) : r.lines.length = r.size := by
  rw [lines, List.length_append, List.length_map, List.length_map, size]

/-- The listing has one line for each command, if there are any. -/
theorem HasNoLineEnds.pieces_listing (h : r.HasNoLineEnds) (hsize : 0 < r.size) :
    Text.pieces '\n' r.listing = r.lines := by
  have hne : r.lines ≠ [] := List.ne_nil_of_length_pos (by rwa [length_lines])
  exact pieces_joined hne h.notMem_of_mem_lines

end Registry

/-! ## Consoles that can be reached -/

namespace Session

variable {s : Session W}

/-- The session is that of a console that was started on a registry.  Since then packages
may have been loaded, and anything may have happened to it. -/
inductive Reached : Session W → Prop
  | start {r : Registry W} (hr : r.Reachable) (height : Int) (banner : Option Text) (world : W) :
      Reached (sessionAfter (start height banner) (ofRegistry r world))
  | load {s : Session W} (hs : s.Reached) (depth : ℕ) (modules : List (Text × PluginModule W))
      (package : Text) : Reached (sessionAfter (loadPackage depth modules package) s)
  | react {s : Session W} (hs : s.Reached) (event : Event W) : Reached (s.react event)

/-- What a console has from its start and no step of a script can harm it keeps. -/
theorem Reached.of_lasting {I : Session W → Prop} (hI : Lasting I)
    (hhistory : ∀ s history, I s → I { s with history })
    (hshown : ∀ s typed isOpen suggestions, I s → I { s with typed, isOpen, suggestions })
    (hstart : ∀ (s : Session W) (r : Registry W), r.Reachable →
      s.registry = r.offerAll [listCommand] → I s) (h : s.Reached) : I s := by
  induction h with
  | @start r hr height banner world =>
      obtain ⟨s, hs, hholds⟩ := exists_start r height banner world
      rw [sessionAfter_of_ok hs]
      exact hstart s r hr hholds.registry_eq
  | load hs depth modules package ih => exact hI.preserves_loadPackage hhistory modules package _ ih
  | react hs event ih => exact hI.react hhistory hshown ih event

theorem Reached.wellFormed (h : s.Reached) : s.registry.WellFormed := by
  refine h.of_lasting lasting_wellFormed (fun _ _ hs => hs) (fun _ _ _ _ hs => hs) ?_
  intro s r hr hregistry
  rw [hregistry]
  exact hr.wellFormed.offerAll [listCommand]

theorem Reached.exists_lister (h : s.Reached) :
    ∃ c ∈ s.registry.commands, Registration.command? listCommand = some c := by
  refine ⟨_, ?_, rfl⟩
  refine h.of_lasting (lasting_mem_commands _) (fun _ _ hs => hs) (fun _ _ _ _ hs => hs) ?_
  intro s r _ hregistry
  rw [hregistry]
  exact List.mem_append_right r.commands List.mem_cons_self

theorem print_listing (h : s.registry.HasNoLineEnds) (hsize : 0 < s.registry.size) :
    print (.text s.registry.listing) s =
      .ok () { s with output := (s.registry.lines.map Value.text).reverse ++ s.output } := by
  rw [← h.pieces_listing hsize]
  rfl

/-- The list of all commands tells the truth about a console, whatever has happened to it.
Without line ends in fixed aliases and literals, what the command for it answers is printed
as one line for each command: the usage lines of all alias commands, then the texts of all
literals, each in the order of registration.  The usage line of a command shows its names.
What is typed as it shows them is resolved to the command or to one before it, unless
a live source fails at a fixed position of a command before it; then that fault is the answer. -/
theorem Reached.lists_commands {W : Type} {s : Session W} (h : s.Reached) :
    (s.registry.HasNoLineEnds → ∃ lister ∈ s.registry.commands,
        Registration.command? listCommand = some lister ∧
          ∀ nested tokens, ∃ message lines,
            perform nested (lister.callback tokens) s = .ok message s ∧
              print message s =
                .ok () { s with output := (lines.map Value.text).reverse ++ s.output } ∧
              lines =
                s.registry.commands.map Command.usage ++ s.registry.literals.map (·.text) ∧
              lines.length = s.registry.size) ∧
      (∀ c ∈ s.registry.commands, ∃ parts, c.IsUsage parts) ∧
      ∀ index c, s.registry.commands[index]? = some c →
        ∀ tokens, c.IsCalledAsShown tokens → ∀ w,
          (∃ j ≤ index, ∃ after, s.registry.resolveExact tokens w = .ok (some j) after) ∨
            ∃ earlier < index, ∃ fault after,
              Registry.SearchFails tokens 0 s.registry.commands w earlier fault after ∧
                s.registry.resolveExact tokens w = .error fault.duringMatch after := by
  refine ⟨fun hlines => ?_, fun c _ => c.exists_isUsage, ?_⟩
  · obtain ⟨lister, hlister, hcommand⟩ := h.exists_lister
    have hsize : 0 < s.registry.size :=
      Nat.lt_of_lt_of_le (List.length_pos_of_mem hlister) (Nat.le_add_right _ _)
    obtain rfl := Option.some.inj hcommand
    exact ⟨_, hlister, rfl, fun nested tokens =>
      ⟨.text s.registry.listing, s.registry.lines, rfl, print_listing hlines hsize, rfl,
        s.registry.length_lines⟩⟩
  · intro index c hc tokens htokens w
    exact Registry.exists_resolveExact_le_or_searchFails h.wellFormed hc
      htokens.alwaysGives_accepts w

/-- A console that was started on a command whose second position takes any token and on a
literal, and that has been given a command which shares a name with the first one. -/
def signpost : Session Unit :=
  (sessionAfter (start 10 none) (ofRegistry (Registry.empty.offerAll
    [.aliases
        [.candidates (.fixed [["go".toList, "g".toList], [], ["walk".toList]]),
          .value (.text "north".toList) 0] (some 1) fun _ => .say [],
      .literal "exit now".toList fun _ => .say []]) ())).react
    (.register (.aliases
      [.candidates (.fixed [["stop".toList, "halt".toList], ["go".toList, "run".toList]])] none
      fun _ => .say []))

theorem Reached.lists_commands_signpost :
    signpost.Reached ∧ signpost.registry.HasNoLineEnds ∧
      (∃ lister ∈ signpost.registry.commands, ∀ nested tokens, ∃ message,
        perform nested (lister.callback tokens) signpost = .ok message signpost ∧
          print message signpost = .ok () { signpost with
            output := [.text "exit now".toList, .text "stop/go".toList, .text "list".toList,
              .text "go/walk <arg>".toList] }) ∧
      ∃ j ≤ 2, ∃ after, signpost.registry.resolveExact ["go".toList] () = .ok (some j) after := by
  have hreached : signpost.Reached := .react (.start ⟨_, rfl⟩ 10 none ()) _
  have hlines : signpost.registry.HasNoLineEnds := ⟨by decide, by decide⟩
  have hgo : ∀ c, signpost.registry.commands[2]? = some c →
      c.IsCalledAsShown ["go".toList] := by
    rintro c ⟨⟩
    have hmem : ["go".toList, "run".toList] ∈
        [["stop".toList, "halt".toList], ["go".toList, "run".toList]] := by simp
    exact Command.isCalledAsShown_of_head rfl rfl hmem rfl []
  obtain ⟨hlists, -, hresolves⟩ := Reached.lists_commands hreached
  obtain ⟨lister, hlister, -, hanswers⟩ := hlists hlines
  refine ⟨hreached, hlines, ⟨lister, hlister, fun nested tokens => ?_⟩, ?_⟩
  · obtain ⟨message, lines, hmessage, hprint, rfl, -⟩ := hanswers nested tokens
    exact ⟨message, hmessage, hprint⟩
  · rcases hresolves 2 _ rfl _ (hgo _ rfl) () with hfound | ⟨-, -, fault, after, -, hfault⟩
    · exact hfound
    · cases hfault

/-- A console that was started on a command whose live source is gone, and on one with a
name. -/
def outage : Session Unit :=
  sessionAfter (start 10 none) (ofRegistry (Registry.empty.offerAll
    [.aliases [.candidates (.live fun w => .error sourceGone w)] none fun _ => .say [],
      .aliases [.value (.text "go".toList) 0] none fun _ => .say []]) ())

/-- A source that is gone keeps the console from resolving a name that it shows. -/
theorem not_resolved_outage :
    outage.Reached ∧ outage.registry.HasNoLineEnds ∧
      ∃ c, outage.registry.commands[1]? = some c ∧ c.usage = "go".toList ∧
        c.IsCalledAsShown ["go".toList] ∧
        ¬∃ j ≤ 1, ∃ after,
          outage.registry.resolveExact ["go".toList] () = .ok (some j) after := by
  refine ⟨.start ⟨_, rfl⟩ 10 none (), ⟨by decide, by decide⟩, _, rfl, by decide, ?_, ?_⟩
  · exact Command.isCalledAsShown_of_head rfl rfl List.mem_cons_self rfl []
  · rintro ⟨j, -, after, ⟨⟩⟩

end Session

end AliasConsole
