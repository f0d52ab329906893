import AliasConsole.Completion.Narrowing
import Mathlib.Data.Nat.Notation
import Mathlib.Tactic.Common

/-!
# Evaluating candidates

Candidates are read from a world that may change at every reading.  A reading
never fails if it succeeds in every world, and it is steady if it gives the
same answer in every world, whatever it does to the world.  Registries inherit
both notions from their candidates.  In a well-formed registry the fixed
positions of a command lie within its candidates, so that no evaluation runs
out of range.
-/

namespace AliasConsole

section Reading

variable {W α β : Type}

/-- The reading succeeds in every world. -/
def AlwaysSucceeds (x : Reads W α) : Prop :=
  ∀ w, ∃ a w', x w = .ok a w'

/-- The reading succeeds with the same answer in every world. -/
def AlwaysGives (x : Reads W α) (a : α) : Prop :=
  ∀ w, ∃ w', x w = .ok a w'

theorem bind_of_ok {x : Reads W α} {f : α → Reads W β} {w w' : W} {a : α}
    (h : x w = .ok a w') : (x >>= f) w = f a w' := by
  change EStateM.bind x f w = f a w'
  simp only [EStateM.bind, h]

theorem bind_of_error {x : Reads W α} {f : α → Reads W β} {w w' : W} {fault : Fault}
    (h : x w = .error fault w') : (x >>= f) w = .error fault w' := by
  change EStateM.bind x f w = .error fault w'
  simp only [EStateM.bind, h]

theorem tryCatch_of_ok {x : Reads W α} {handle : Fault → Reads W α} {w w' : W} {a : α}
    (h : x w = .ok a w') : (tryCatch x handle) w = .ok a w' := by
  change EStateM.tryCatch x handle w = .ok a w'
  simp only [EStateM.tryCatch, h]

/-- What a failing reading has done to the world stays done. -/
theorem tryCatch_of_error {x : Reads W α} {handle : Fault → Reads W α} {w w' : W}
    {fault : Fault} (h : x w = .error fault w') : (tryCatch x handle) w = handle fault w' := by
  change EStateM.tryCatch x handle w = handle fault w'
  simp only [EStateM.tryCatch, h]
  rfl

theorem exists_ok_of_bind_ok {x : Reads W α} {f : α → Reads W β} {w w' : W} {b : β}
    (h : (x >>= f) w = .ok b w') : ∃ a w₁, x w = .ok a w₁ ∧ f a w₁ = .ok b w' := by
  change EStateM.bind x f w = .ok b w' at h
  cases hx : x w with
  | ok a w₁ =>
      simp only [EStateM.bind, hx] at h
      exact ⟨a, w₁, rfl, h⟩
  | error fault w₁ =>
      simp only [EStateM.bind, hx] at h
      cases h

theorem AlwaysSucceeds.pure (a : α) : AlwaysSucceeds (pure a : Reads W α) :=
  fun w => ⟨a, w, rfl⟩

theorem AlwaysSucceeds.bind {x : Reads W α} {f : α → Reads W β} (hx : AlwaysSucceeds x)
    (hf : ∀ a, AlwaysSucceeds (f a)) : AlwaysSucceeds (x >>= f) := by
  intro w
  obtain ⟨a, w', hw⟩ := hx w
  rw [bind_of_ok hw]
  exact hf a w'

theorem AlwaysGives.pure (a : α) : AlwaysGives (pure a : Reads W α) a :=
  fun w => ⟨w, rfl⟩

theorem AlwaysGives.bind {x : Reads W α} {f : α → Reads W β} {a : α} {b : β}
    (hx : AlwaysGives x a) (hf : AlwaysGives (f a) b) : AlwaysGives (x >>= f) b := by
  intro w
  obtain ⟨w', hw⟩ := hx w
  rw [bind_of_ok hw]
  exact hf w'

theorem AlwaysGives.eq_of_ok {x : Reads W α} {a b : α} {w w' : W}
    (hx : AlwaysGives x a) (h : x w = .ok b w') : b = a := by
  obtain ⟨w'', hw⟩ := hx w
  rw [h, EStateM.Result.ok.injEq] at hw
  exact hw.1

end Reading

theorem getElem?_of_drop_eq_cons {α : Type} {items rest : List α} {a : α} {index : ℕ}
    (h : items.drop index = a :: rest) :
    items[index]? = some a ∧ items.drop (index + 1) = rest := by
  constructor
  · rw [← Nat.add_zero index, ← List.getElem?_drop, h, List.getElem?_cons_zero]
  · rw [← List.tail_drop, h, List.tail_cons]

/-- Changing the commands of a list of entries does not change which indices are kept. -/
theorem filter_map_command {W V : Type} (change : Entry W → Command V) (keep : ℕ → Bool)
    (entries : List (Entry W)) :
    (entries.map fun e => (change e, e.2)).filter (fun e => keep e.2) =
      (entries.filter fun e => keep e.2).map fun e => (change e, e.2) :=
  List.filter_map

/-- Groups by position and by the index of the command that offers them. -/
abbrev GroupTable := ℕ → ℕ → List AliasGroup

/-- One of the groups that the command offers at the position has the alias. -/
def Offers (table : GroupTable) (position command : ℕ) (spelling : Text) : Prop :=
  ∃ aliases ∈ table position command, spelling ∈ aliases

instance (table : GroupTable) (position command : ℕ) (spelling : Text) :
    Decidable (Offers table position command spelling) :=
  inferInstanceAs (Decidable (∃ aliases ∈ table position command, spelling ∈ aliases))

namespace Registry

variable {W : Type}

/-- No command has more fixed tokens than positions. -/
def WellFormed (r : Registry W) : Prop :=
  ∀ c ∈ r.commands, c.fixed ≤ c.slots.length

instance (r : Registry W) : Decidable r.WellFormed :=
  inferInstanceAs (Decidable (∀ c ∈ r.commands, c.fixed ≤ c.slots.length))

/-- No candidates of the registry ever fail. -/
def NeverFails (r : Registry W) : Prop :=
  ∀ c ∈ r.commands, ∀ slot ∈ c.slots, AlwaysSucceeds slot.groups

/-- All candidates of the registry are the same at every evaluation. -/
def Steady (r : Registry W) : Prop :=
  ∀ c ∈ r.commands, ∀ slot ∈ c.slots, ∃ groups, AlwaysGives slot.groups groups

/-- Every alias that the candidates of the registry can ever give has the
property. -/
def AliasesSatisfy (r : Registry W) (P : Text → Prop) : Prop :=
  ∀ c ∈ r.commands, ∀ slot ∈ c.slots, ∀ w groups w', slot.groups w = .ok groups w' →
    ∀ aliases ∈ groups, ∀ spelling ∈ aliases, P spelling

/-- Every evaluation gives the groups of the table. -/
def Shows (r : Registry W) (table : GroupTable) : Prop :=
  ∀ (index : ℕ) (c : Command W), r.commands[index]? = some c →
    ∀ position < c.slots.length, AlwaysGives (c.groupsAt position) (table position index)

theorem AliasesSatisfy.imp {r : Registry W} {P Q : Text → Prop} (h : r.AliasesSatisfy P)
    (hPQ : ∀ t, P t → Q t) : r.AliasesSatisfy Q :=
  fun c hc slot hslot w groups w' hok aliases haliases spelling hspelling =>
    hPQ spelling (h c hc slot hslot w groups w' hok aliases haliases spelling hspelling)

theorem WellFormed.reach_le {r : Registry W} (hr : r.WellFormed) {c : Command W}
    (hc : c ∈ r.commands) (limited : Bool) : c.reach limited ≤ c.slots.length := by
  cases limited with
  | false => exact Nat.le_refl _
  | true => exact hr c hc

end Registry

section GroupsAt

variable {W : Type} {r : Registry W} {c : Command W} {index position : ℕ}

theorem groupsAt_of_getElem? {slot : Candidates W}
    (h : c.slots[position]? = some slot) : c.groupsAt position = slot.groups := by
  simp only [Command.groupsAt, h]

theorem exists_slot (hc : r.commands[index]? = some c)
    (hposition : position < c.slots.length) :
    c ∈ r.commands ∧ ∃ slot ∈ c.slots, c.groupsAt position = slot.groups := by
  have hslot : c.slots[position]? = some c.slots[position] :=
    List.getElem?_eq_getElem hposition
  exact ⟨List.mem_of_getElem? hc, c.slots[position], List.getElem_mem hposition,
    groupsAt_of_getElem? hslot⟩

theorem Registry.NeverFails.groupsAt (hr : r.NeverFails)
    (hc : r.commands[index]? = some c) (hposition : position < c.slots.length) :
    AlwaysSucceeds (c.groupsAt position) := by
  obtain ⟨hmem, slot, hslot, heq⟩ := exists_slot hc hposition
  rw [heq]
  exact hr c hmem slot hslot

theorem Registry.AliasesSatisfy.groupsAt {P : Text → Prop} (hr : r.AliasesSatisfy P)
    (hc : r.commands[index]? = some c) (hposition : position < c.slots.length)
    {w w' : W} {groups : List AliasGroup} (h : c.groupsAt position w = .ok groups w') :
    ∀ aliases ∈ groups, ∀ spelling ∈ aliases, P spelling := by
  obtain ⟨hmem, slot, hslot, heq⟩ := exists_slot hc hposition
  rw [heq] at h
  exact hr c hmem slot hslot w groups w' h

theorem Registry.Shows.alias_satisfies [Nonempty W] {table : GroupTable} {P : Text → Prop}
    (hshows : r.Shows table) (hP : r.AliasesSatisfy P) (hc : r.commands[index]? = some c)
    (hposition : position < c.slots.length) {spelling : Text}
    (h : Offers table position index spelling) : P spelling := by
  obtain ⟨aliases, haliases, hspelling⟩ := h
  obtain ⟨w⟩ := ‹Nonempty W›
  obtain ⟨w', hw⟩ := hshows index c hc position hposition w
  exact hP.groupsAt hc hposition hw aliases haliases spelling hspelling

theorem Registry.Steady.exists_shows (hr : r.Steady) : ∃ table, r.Shows table := by
  have hentry : ∀ position index : ℕ, ∃ groups, ∀ c : Command W, r.commands[index]? = some c →
      position < c.slots.length → AlwaysGives (c.groupsAt position) groups := by
    intro position index
    by_cases h : ∃ c, r.commands[index]? = some c ∧ position < c.slots.length
    · obtain ⟨c, hc, hposition⟩ := h
      obtain ⟨hmem, slot, hslot, heq⟩ := exists_slot hc hposition
      obtain ⟨groups, hgroups⟩ := hr c hmem slot hslot
      refine ⟨groups, fun d hd _ => ?_⟩
      obtain rfl : c = d := Option.some.inj (hc.symm.trans hd)
      rwa [heq]
    · exact ⟨[], fun c hc hposition => absurd ⟨c, hc, hposition⟩ h⟩
  choose table htable using hentry
  exact ⟨table, fun index c hc position hposition => htable position index c hc hposition⟩

theorem Registry.Shows.steady {table : GroupTable} (hr : r.Shows table) : r.Steady := by
  intro c hc slot hslot
  obtain ⟨index, hindex⟩ := List.mem_iff_getElem?.mp hc
  obtain ⟨position, hslotAt⟩ := List.mem_iff_getElem?.mp hslot
  have hgroups := hr index c hindex position (List.getElem?_eq_some_iff.mp hslotAt).1
  rw [groupsAt_of_getElem? hslotAt] at hgroups
  exact ⟨_, hgroups⟩

theorem Registry.Steady.neverFails (hr : r.Steady) : r.NeverFails := by
  intro c hc slot hslot w
  obtain ⟨groups, hgroups⟩ := hr c hc slot hslot
  exact ⟨groups, hgroups w⟩

end GroupsAt

/-! ## Registries to try things on -/

namespace Registry

/-- Commands with fixed candidates, each with its number of fixed tokens. -/
def ofGroups (W : Type) (entries : List (List (List AliasGroup) × ℕ)) : Registry W :=
  { commands := entries.map fun e => ⟨e.1.map .fixed, e.2, fun _ => Script.say []⟩
    literals := [] }

/-- The groups of commands with fixed candidates. -/
def tableOf (entries : List (List (List AliasGroup) × ℕ)) : GroupTable :=
  fun position command => (entries[command]?.bind fun e => e.1[position]?).getD []

theorem ofGroups_shows (W : Type) (entries : List (List (List AliasGroup) × ℕ)) :
    (ofGroups W entries).Shows (tableOf entries) := by
  intro index c hc position hposition w
  rw [ofGroups, List.getElem?_map] at hc
  obtain ⟨e, he, rfl⟩ := Option.map_eq_some_iff.mp hc
  rw [List.length_map] at hposition
  have hgroups := List.getElem?_eq_getElem hposition
  have hslot : (e.1.map Candidates.fixed)[position]? =
      some (.fixed e.1[position] : Candidates W) := by
    rw [List.getElem?_map, hgroups, Option.map_some]
  refine ⟨w, ?_⟩
  rw [groupsAt_of_getElem? hslot, tableOf, he, Option.bind_some, hgroups]
  rfl

theorem ofGroups_aliasesSatisfy (W : Type) {entries : List (List (List AliasGroup) × ℕ)}
    {P : Text → Prop}
    (h : ∀ e ∈ entries, ∀ groups ∈ e.1, ∀ aliases ∈ groups, ∀ spelling ∈ aliases, P spelling) :
    (ofGroups W entries).AliasesSatisfy P := by
  intro c hc slot hslot w groups w' hok
  obtain ⟨e, he, rfl⟩ := List.mem_map.mp hc
  obtain ⟨fixed, hfixed, rfl⟩ := List.mem_map.mp hslot
  obtain rfl : fixed = groups := (EStateM.Result.ok.inj hok).1
  exact h e he fixed hfixed

/-- Three commands; the second one reads the aliases of its free position from
a world that counts the readings and offers one group more every time. -/
def counting : Registry ℕ :=
  { commands :=
      [⟨[.fixed [["abcd".toList, "ab".toList], []], .fixed [["one".toList]]], 2,
          fun _ => Script.say []⟩,
        ⟨[.fixed [["abyss".toList]],
            .live fun count => .ok (List.replicate count ["ones".toList]) (count + 1)], 1,
          fun _ => Script.say []⟩,
        ⟨[.fixed [["xaby".toList]], .fixed [["one".toList]]], 2, fun _ => Script.say []⟩]
    literals := [] }

theorem counting_neverFails : counting.NeverFails := by
  simp only [NeverFails, counting, List.forall_mem_cons, List.not_mem_nil,
    IsEmpty.forall_iff, implies_true, and_true]
  refine ⟨⟨?_, ?_⟩, ⟨?_, ?_⟩, ?_, ?_⟩ <;> exact fun w => ⟨_, _, rfl⟩

end Registry

end AliasConsole
