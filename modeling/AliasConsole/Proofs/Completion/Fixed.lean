import AliasConsole.Completion.Basic
import AliasConsole.Proofs.Registration

/-!
# Completing fixed positions only

Completion knows a command by the positions below its reach and by the candidates there.
The limit to fixed positions changes the reach alone, so completing with the limit is
completing without it in a registry whose commands have been cut after their fixed
positions.  This needs that the fixed positions of a command lie within its candidates,
which every registration checks.
-/

namespace AliasConsole

variable {W : Type}

/-! ## Commands that are seen alike -/

/-- The first command with its limit covers the positions that the second one covers with
its own limit, and has the same candidates there. -/
structure Command.SeenAs (limited limited' : Bool) (c d : Command W) : Prop where
  reach_eq : c.reach limited = d.reach limited'
  groupsAt_eq : ∀ position < d.reach limited', c.groupsAt position = d.groupsAt position

section SeenAs

variable {limited limited' : Bool} {f : Command W → Command W}

theorem evaluateAt_map {entries : List (Entry W)}
    (h : ∀ e ∈ entries, (f e.1).SeenAs limited limited' e.1) (position : ℕ) :
    evaluateAt limited position (entries.map fun e => (f e.1, e.2)) =
      evaluateAt limited' position entries := by
  induction entries with
  | nil => rfl
  | cons e rest ih =>
      obtain ⟨c, index⟩ := e
      obtain ⟨hseen, hrest⟩ := List.forall_mem_cons.mp h
      rw [List.map_cons, evaluateAt, evaluateAt, hseen.reach_eq, ih hrest]
      split_ifs with hreach
      · rw [hseen.groupsAt_eq position hreach]
      · rfl

theorem narrowFrom_map {entries : List (Entry W)}
    (h : ∀ e ∈ entries, (f e.1).SeenAs limited limited' e.1) (position : ℕ)
    (tokens : List Text) :
    narrowFrom limited position (entries.map fun e => (f e.1, e.2)) tokens =
      narrowFrom limited' position entries tokens := by
  induction tokens generalizing position entries with
  | nil => rfl
  | cons token rest ih =>
      rw [narrowFrom, narrowFrom, evaluateAt_map h]
      congr 1
      funext evaluated
      have hkept : ∀ e ∈ entries.filter fun e => (Narrowing.of token evaluated).keeps e.2,
          (f e.1).SeenAs limited limited' e.1 := fun e he => h e (List.mem_filter.mp he).1
      dsimp only
      rw [filter_map_command fun e => f e.1, ih hkept]

theorem narrow_map {r : Registry W} (h : ∀ c ∈ r.commands, (f c).SeenAs limited limited' c)
    (tokens : List Text) :
    narrow { r with commands := r.commands.map f } limited tokens = narrow r limited' tokens := by
  have hentries : (r.commands.map f).zipIdx =
      r.commands.zipIdx.map fun e => (f e.1, e.2) := List.zipIdx_map
  rw [narrow, narrow, hentries]
  exact narrowFrom_map (fun e he => h e.1 (List.fst_mem_of_mem_zipIdx he)) 0 tokens

end SeenAs

/-! ## Commands that are cut -/

/-- The command with its fixed positions only. -/
def Command.truncated (c : Command W) : Command W := { c with slots := c.slots.take c.fixed }

/-- The registry whose commands have their fixed positions only. -/
def Registry.truncated (r : Registry W) : Registry W :=
  { r with commands := r.commands.map Command.truncated }

theorem Command.seenAs_truncated {c : Command W} (h : c.fixed ≤ c.slots.length) :
    c.truncated.SeenAs false true c := by
  constructor
  · exact List.length_take_of_le h
  · intro position hposition
    have hslot : c.truncated.slots[position]? = c.slots[position]? :=
      List.getElem?_take_of_lt hposition
    rw [groupsAt, groupsAt, hslot]

theorem Registry.WellFormed.narrow_truncated {r : Registry W} (h : r.WellFormed)
    (tokens : List Text) : narrow r.truncated false tokens = narrow r true tokens :=
  narrow_map (fun c hc => Command.seenAs_truncated (h c hc)) tokens

/-- Completing the fixed positions only is completing all positions of the commands that
are cut after them: the answer, the fault and the world afterwards are the same. -/
theorem autocomplete_limited {r : Registry W} (h : r.Reachable) (options : CompletionOptions)
    (line : Text) :
    autocomplete r { options with limitToFixed := true } line =
      autocomplete r.truncated { options with limitToFixed := false } line := by
  rw [autocomplete, autocomplete, h.wellFormed.narrow_truncated]
  rfl

/-- Two commands; the first one has a free position, and each evaluation of it counts. -/
def fetching : List (Registration ℕ (Script ℕ)) :=
  [.aliases [.candidates (.fixed [["get".toList]]),
      .candidates (.live fun count => .ok [["alpine".toList]] (count + 1))] (some 1)
      fun _ => Script.say [],
    .aliases [.value (.list [.text "getter".toList, .text "getting".toList]) 0,
      .value (.text "alpha".toList) 0] none fun _ => Script.say []]

/-- Without the limit the free position takes part, which leaves the second token short
and changes the world. -/
theorem autocomplete_limited_fetching :
    (Registry.empty.offerAll fetching).Reachable ∧
      autocomplete (Registry.empty.offerAll fetching) { CompletionOptions.full with
          limitToFixed := true } "ge al".toList =
        autocomplete (Registry.empty.offerAll fetching).truncated { CompletionOptions.full with
          limitToFixed := false } "ge al".toList ∧
      ∃ limited whole,
        autocomplete (Registry.empty.offerAll fetching) ⟨true, true, true⟩ "ge al".toList 0 =
          .ok limited 0 ∧
        autocomplete (Registry.empty.offerAll fetching) ⟨false, true, true⟩ "ge al".toList 0 =
          .ok whole 1 ∧
        limited.line = "get alpha ".toList ∧ whole.line = "get alp".toList := by
  have hreachable : (Registry.empty.offerAll fetching).Reachable := ⟨fetching, rfl⟩
  refine ⟨hreachable, autocomplete_limited hreachable .full "ge al".toList, _, _, rfl, rfl, ?_, ?_⟩
  · decide +kernel
  · decide +kernel

end AliasConsole
