import AliasConsole.Proofs.Registration
import AliasConsole.Proofs.Resolution
import AliasConsole.Proofs.Resolution.Longest

/-!
# Resolving in a growing registry

What a line selects depends on the order of registration only in one direction:
later registrations never take a line away from an alias command, and a literal
command gives way at most to a later alias command or to a later literal that
is longer.
-/

namespace AliasConsole.Registry

variable {W : Type} {r r' : Registry W} {tokens : List Text} {line : Text}

/-- What a line that selects a command may select once the registry has grown:
the same command, or, for a literal one, a new alias command or a new literal
that is longer. -/
def MayBecome (r r' : Registry W) : Selection → Selection → Prop
  | .aliases index, after =>
      after = .aliases index ∧ r'.commands[index]? = r.commands[index]?
  | .literal index, .literal later =>
      (later = index ∧ r'.literals[index]? = r.literals[index]?) ∨
        (r.literals.length ≤ later ∧ ∃ old new, r.literals[index]? = some old ∧
          r'.literals[later]? = some new ∧ old.text.length < new.text.length)
  | .literal _, .aliases later =>
      r.commands.length ≤ later ∧ later < r'.commands.length

/-- A literal that a line selects keeps the line, or loses it to a new literal
that is longer. -/
theorem Extends.resolveLiteral (h : r.Extends r') {index : ℕ}
    (hindex : r.resolveLiteral line = some index) :
    ∃ later, r'.resolveLiteral line = some later ∧
      r.MayBecome r' (.literal index) (.literal later) := by
  obtain ⟨l, hbest, hne⟩ := resolveLiteral_eq_some_iff.mp hindex
  have hlt : index < r.literals.length := (List.getElem?_eq_some_iff.mp hbest.getElem?).1
  have hkept : r'.literals[index]? = some l := (h.getElem?_literals hlt).trans hbest.getElem?
  cases hlater : r'.resolveLiteral line with
  | none =>
      have hnil := resolveLiteral_eq_none_iff.mp hlater l (List.mem_of_getElem? hkept)
        hbest.admits
      exact absurd hnil hne
  | some later =>
      obtain ⟨l', hbest', -⟩ := resolveLiteral_eq_some_iff.mp hlater
      refine ⟨later, rfl, ?_⟩
      rcases Nat.lt_or_ge later r.literals.length with hold | hnew
      · left
        have hold' : IsLongest line r.literals later l' := by
          refine ⟨(h.getElem?_literals hold).symm.trans hbest'.getElem?, hbest'.admits,
            fun x hx => hbest'.longest x (h.literals.subset hx), ?_⟩
          intro earlier hearlier x hx
          exact hbest'.first earlier hearlier x
            ((h.getElem?_literals (hearlier.trans hold)).trans hx)
        exact ⟨hold'.unique hbest, h.getElem?_literals hlt⟩
      · right
        have hlonger : l.text.length < l'.text.length :=
          hbest'.first index (lt_of_lt_of_le hlt hnew) l hkept hbest.admits
        exact ⟨hnew, l, l', hbest.getElem?, hbest'.getElem?, hlonger⟩

theorem Extends.resolveExact_of_some (h : r.Extends r') {index : ℕ} {w w' : W}
    (hfound : r.resolveExact tokens w = .ok (some index) w') :
    r'.resolveExact tokens w = .ok (some index) w' := by
  obtain ⟨back, hback⟩ := h.commands
  rw [resolveExact_eq_ok_iff] at hfound ⊢
  rw [← hback]
  exact resolveExactFrom_append back hfound

theorem Extends.le_of_resolveExact (h : r.Extends r') {index : ℕ} {w w₁ w₂ : W}
    (hnone : r.resolveExact tokens w = .ok none w₁)
    (hfound : r'.resolveExact tokens w = .ok (some index) w₂) :
    r.commands.length ≤ index ∧ index < r'.commands.length := by
  obtain ⟨back, hback⟩ := h.commands
  rw [resolveExact_eq_ok_iff] at hnone hfound
  have hnew := resolveExactFrom_append back hnone
  rw [hback, hfound] at hnew
  have hbounds := lt_of_resolveExactFrom hnew.symm
  rw [← hback, List.length_append]
  omega

/-- Whatever a line selects after the registry has grown, it is what the command
selected before may become. -/
theorem Extends.resolve (h : r.Extends r') {selected : Selection} {found : Option Selection}
    {w w₁ w₂ : W} (hbefore : r.resolve tokens line w = .ok (some selected) w₁)
    (hafter : r'.resolve tokens line w = .ok found w₂) :
    ∃ after, found = some after ∧ r.MayBecome r' selected after := by
  obtain ⟨old, hold, hselected⟩ := resolve_eq_ok_iff.mp hbefore
  obtain ⟨new, hnew, rfl⟩ := resolve_eq_ok_iff.mp hafter
  cases old with
  | some index =>
      obtain rfl := Option.some.inj hselected
      rw [h.resolveExact_of_some hold, EStateM.Result.ok.injEq] at hnew
      obtain ⟨rfl, -⟩ := hnew
      have hlt := (lt_of_resolveExactFrom (resolveExact_eq_ok_iff.mp hold)).2
      rw [Nat.zero_add] at hlt
      exact ⟨.aliases index, rfl, rfl, h.getElem?_commands hlt⟩
  | none =>
      obtain ⟨index, hindex, rfl⟩ := Option.map_eq_some_iff.mp hselected.symm
      cases new with
      | some later => exact ⟨.aliases later, rfl, h.le_of_resolveExact hold hnew⟩
      | none =>
          obtain ⟨later, hlater, hbecomes⟩ := h.resolveLiteral hindex
          exact ⟨.literal later, by rw [select, hlater]; rfl, hbecomes⟩

theorem Steady.exists_resolve (hsteady : r.Steady) (hformed : r.WellFormed)
    (tokens : List Text) (line : Text) :
    ∃ found, AlwaysGives (r.resolve tokens line) found := by
  obtain ⟨table, hshows⟩ := hsteady.exists_shows
  obtain ⟨found, halways, -⟩ := exists_alwaysGives_resolveExact hshows hformed tokens
  refine ⟨r.select line found, fun w => ?_⟩
  obtain ⟨w', hw⟩ := halways w
  exact ⟨w', resolve_eq_ok_iff.mpr ⟨found, hw, rfl⟩⟩

theorem Extends.exists_literal (h : r.Extends r') {selected : Selection} {fault : Fault}
    {w w₁ w₂ : W} (hbefore : r.resolve tokens line w = .ok (some selected) w₁)
    (hfails : r'.resolveExact tokens w = .error fault w₂) :
    ∃ index, selected = .literal index := by
  obtain ⟨old, hold, hselected⟩ := resolve_eq_ok_iff.mp hbefore
  cases old with
  | none =>
      obtain ⟨index, -, hliteral⟩ := Option.map_eq_some_iff.mp hselected.symm
      exact ⟨index, hliteral.symm⟩
  | some index =>
      have hkept := h.resolveExact_of_some hold
      rw [hfails] at hkept
      cases hkept

theorem Extends.le_of_searchFails (h : r.Extends r') (hfail : r.NeverFails) {command : ℕ}
    {fault : Fault} {w after : W}
    (hsearch : SearchFails tokens 0 r'.commands w command fault after) :
    r.commands.length ≤ command := by
  obtain ⟨hc, -, hslot, -, -, hfails⟩ := hsearch
  by_contra hlt
  rw [h.getElem?_commands (not_le.mp hlt)] at hc
  obtain ⟨groups, w', hok⟩ := hfail _ (List.mem_of_getElem? hc) _ (List.mem_of_getElem? hslot) _
  rw [hfails] at hok
  cases hok

/-- A line that selects a command goes on to select it when more is registered,
or what the command may become, whether the requests are granted or refused.
Only a line that selects a literal may fail to: by a fault of candidates of
a new command, which is then the answer. -/
theorem resolve_offerAll (hreach : r.Reachable) (hsteady : r.Steady) {selected : Selection}
    {w₀ w₁ : W} (hbefore : r.resolve tokens line w₀ = .ok (some selected) w₁)
    (later : List (Registration W (Script W))) (w : W) :
    (∃ after w', (r.offerAll later).resolve tokens line w = .ok (some after) w' ∧
        r.MayBecome (r.offerAll later) selected after) ∨
      ((∃ index, selected = .literal index) ∧
        ∃ command fault w', r.commands.length ≤ command ∧
          SearchFails tokens 0 (r.offerAll later).commands w command fault w' ∧
            (r.offerAll later).resolve tokens line w = .error fault.duringMatch w') := by
  have hextends := extends_offerAll r later
  have hformed := hreach.wellFormed.offerAll later
  obtain ⟨found, halways⟩ := hsteady.exists_resolve hreach.wellFormed tokens line
  obtain rfl := halways.eq_of_ok hbefore
  obtain ⟨w₂, hnow⟩ := halways w
  cases hsearch : resolveExactFrom tokens 0 (r.offerAll later).commands w with
  | ok found w' =>
      have hafter : (r.offerAll later).resolve tokens line w =
          .ok ((r.offerAll later).select line found) w' :=
        resolve_eq_ok_iff.mpr ⟨found, resolveExact_eq_ok_iff.mpr hsearch, rfl⟩
      obtain ⟨after, hselects, hbecomes⟩ := hextends.resolve hnow hafter
      exact .inl ⟨after, w', hselects ▸ hafter, hbecomes⟩
  | error fault w' =>
      have hfault := resolveExact_of_error hsearch
      obtain ⟨command, -, hfails⟩ := exists_searchFails hformed hsearch
      refine .inr ⟨hextends.exists_literal hnow hfault, command, fault, w',
        hextends.le_of_searchFails hsteady.neverFails hfails, hfails, ?_⟩
      rw [resolve, bind_of_error hfault]

/-- A console that goes by `go` and by the literal `tele`. -/
def travelling : List (Registration Unit (Script Unit)) :=
  [.aliases [.value (.text "go".toList) 0] none fun _ => Script.say [],
    .literal "tele".toList fun _ => Script.say []]

/-- A request for more fixed tokens than positions, which is refused, and one
for a longer literal. -/
def travellingFurther : List (Registration Unit (Script Unit)) :=
  [.aliases [.value (.text "tele".toList) 0] (some 2) fun _ => Script.say [],
    .literal "tele port".toList fun _ => Script.say []]

theorem resolve_offerAll_travelling :
    ((empty.offerAll travelling).resolve ["tele".toList, "port".toList] "tele port".toList () =
        .ok (some (.literal 0)) ()) ∧
      ∃ after w', ((empty.offerAll travelling).offerAll travellingFurther).resolve
          ["tele".toList, "port".toList] "tele port".toList () = .ok (some after) w' ∧
        (empty.offerAll travelling).MayBecome
          ((empty.offerAll travelling).offerAll travellingFurther) (.literal 0) after := by
  have hsteady : (empty.offerAll travelling).Steady := by
    intro c hc slot hslot
    obtain rfl := List.mem_singleton.mp hc
    obtain rfl := List.mem_singleton.mp hslot
    exact ⟨_, AlwaysGives.pure _⟩
  have hbefore : (empty.offerAll travelling).resolve ["tele".toList, "port".toList]
      "tele port".toList () = .ok (some (.literal 0)) () := rfl
  refine ⟨hbefore, ?_⟩
  rcases resolve_offerAll ⟨travelling, rfl⟩ hsteady hbefore travellingFurther () with
    hselects | ⟨-, -, fault, w', -, -, hfault⟩
  · exact hselects
  · cases hfault

/-- Nothing but the literal `tele`. -/
def landline : List (Registration Unit (Script Unit)) :=
  [.literal "tele".toList fun _ => Script.say []]

/-- A request for a command whose live source is gone. -/
def deadLine : List (Registration Unit (Script Unit)) :=
  [.aliases [.candidates (.live fun w =>
    .error (.saying .failure "gone".toList) w)] none fun _ => Script.say []]

/-- A new command whose source is gone takes its line away from a literal and does not select
anything for it. -/
theorem not_resolve_offerAll_deadLine :
    (empty.offerAll landline).Reachable ∧ (empty.offerAll landline).Steady ∧
      (empty.offerAll landline).resolve ["tele".toList] "tele".toList () =
        .ok (some (.literal 0)) () ∧
      ¬∃ after w', ((empty.offerAll landline).offerAll deadLine).resolve ["tele".toList]
        "tele".toList () = .ok (some after) w' := by
  have hsteady : (empty.offerAll landline).Steady := by
    intro c hc
    cases hc
  refine ⟨⟨landline, rfl⟩, hsteady, rfl, ?_⟩
  rintro ⟨after, w', ⟨⟩⟩

end AliasConsole.Registry
