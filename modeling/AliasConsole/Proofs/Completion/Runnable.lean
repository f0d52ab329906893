import AliasConsole.Proofs.Completion.Reassembly
import AliasConsole.Proofs.Text.Occurrence

/-!
# Completing a runnable line

If no alias has capitals, a fixed token that is an alias selects itself, and
every other selected alias extends it.  So the command that a line runs
survives narrowing at its fixed positions, completion leaves its fixed tokens
alone, and the completed line runs it too, or a command in front of it.
-/

namespace AliasConsole

theorem rank_self_of_isLowerAscii {query : Text} (hquery : IsLowerAscii query) :
    rank query query = ⟨some 0, 0⟩ := by
  rw [rank_of_isLowerAscii hquery hquery, Int.sub_self,
    position?_eq_some_zero_iff.mpr (List.prefix_refl query)]

theorem IsBest.eq_query {query : Text} {aliases : AliasGroup} {spelling : Text}
    (h : IsBest query aliases spelling) (hquery : IsLowerAscii query)
    (hspelling : IsLowerAscii spelling) (hmem : query ∈ aliases) : spelling = query := by
  have hself := rank_self_of_isLowerAscii hquery
  have hrank := rank_of_isLowerAscii hquery hspelling
  have hzero : Text.position? query spelling = some 0 := by
    have hposition := h.position_eq_zero ⟨query, hmem, by rw [hself]⟩
    rwa [hrank] at hposition
  have hinitial : query <+: spelling := position?_eq_some_zero_iff.mp hzero
  have hsurplus : (spelling.length : ℤ) - query.length ≤ 0 := by
    have hle := h.firstLeast.key_le hmem
    rw [hrank, hself, hzero] at hle
    simpa [Rank.key, Prod.Lex.toLex_le_toLex] using hle
  exact (hinitial.eq_of_length_le (by omega)).symm

namespace Scan

variable {W : Type} {s : Scan W} {position command : ℕ} {token : Text}

/-- A living command that offers the token as it is has a match for it in the
preferred bucket. -/
theorem exists_isMatch_of_offers (halive : s.Alive position command)
    (hcovers : s.Covers position command) (htoken : s.tokens[position]? = some token)
    (hlower : IsLowerAscii token) (hoffers : Offers s.groups position command token) :
    ∃ group aliases, (s.groups position command)[group]? = some aliases ∧
      token ∈ aliases ∧ s.IsMatch position command group .startsWith := by
  obtain ⟨aliases, haliases, hmem⟩ := hoffers
  obtain ⟨group, hgroup⟩ := List.mem_iff_getElem?.mp haliases
  have hrank : rank (Text.lower token) token = ⟨some 0, 0⟩ := by
    rw [lower_of_isLowerAscii hlower, rank_self_of_isLowerAscii hlower]
  have hstarts : GroupStarts (Text.lower token) aliases := ⟨token, hmem, by rw [hrank]⟩
  have hholds : GroupHolds (Text.lower token) aliases := ⟨token, hmem, by simp [hrank]⟩
  exact ⟨group, aliases, hgroup, hmem, halive, hcovers, token, aliases, htoken, hgroup,
    List.ne_nil_of_mem hmem, hholds, iff_of_true rfl hstarts⟩

/-- Once the preferred bucket is selected, the selected aliases extend the
token. -/
theorem IsSelectedAlias.extends_token {group : ℕ} {spelling : Text}
    (h : s.IsSelectedAlias position command group spelling)
    (hselected : s.IsSelected position .startsWith)
    (htoken : s.tokens[position]? = some token) (hlower : IsLowerAscii token)
    (hspelling : IsLowerAscii spelling) : token <+: spelling := by
  have hzero := h.position_eq_zero hselected htoken
  rw [lower_of_isLowerAscii hlower, rank_of_isLowerAscii hlower hspelling] at hzero
  exact position?_eq_some_zero_iff.mp hzero

/-- If a living command offers the token as it is, the command stays alive and
completion leaves the token alone. -/
theorem keeps_offered_token
    (hplain : ∀ command group spelling,
      s.IsSelectedAlias position command group spelling → IsLowerAscii spelling)
    (halive : s.Alive position command) (hcovers : s.Covers position command)
    (htoken : s.tokens[position]? = some token) (hlower : IsLowerAscii token)
    (hnonempty : token ≠ []) (hoffers : Offers s.groups position command token) :
    s.Alive (position + 1) command ∧ (s.narrowingAt position).completed.text = token := by
  have hposition : position < s.tokens.length := (List.getElem?_eq_some_iff.mp htoken).1
  obtain ⟨group, aliases, hgroup, hmem, hmatch⟩ :=
    exists_isMatch_of_offers halive hcovers htoken hlower hoffers
  have hselected : s.IsSelected position .startsWith := ⟨command, group, hmatch⟩
  have hown : s.IsSelectedAlias position command group token := by
    obtain ⟨spelling, hspelling⟩ := hmatch.exists_isSelectedAlias hselected
    obtain ⟨-, token', aliases', htoken', hgroup', hbest⟩ := id hspelling
    obtain rfl : token = token' := Option.some.inj (htoken.symm.trans htoken')
    obtain rfl : aliases = aliases' := Option.some.inj (hgroup.symm.trans hgroup')
    rw [lower_of_isLowerAscii hlower] at hbest
    rwa [hbest.eq_query hlower (hplain _ _ _ hspelling) hmem] at hspelling
  refine ⟨⟨.startsWith, group, hselected, hmatch⟩, ?_⟩
  refine (isCompletion_completed htoken).text_eq_of_initial hnonempty
    ((mem_selectedAliases_iff hposition).mpr ⟨command, group, hown⟩) ?_
  intro spelling hspelling
  obtain ⟨other, otherGroup, hother⟩ := (mem_selectedAliases_iff hposition).mp hspelling
  exact hother.extends_token hselected htoken hlower (hplain _ _ _ hother)

namespace IsSnapshot

variable {w : W} {worlds : ℕ → ℕ → W} {c : Command W} (h : s.IsSnapshot w worlds)
  (hformed : s.registry.WellFormed) (hshows : s.registry.Shows s.groups)
  (hlower : s.registry.AliasesSatisfy IsLowerAscii) (hwords : ∀ t ∈ s.tokens, t ≠ [])
  (haccepts : s.registry.Accepts s.groups s.tokens command)
  (hc : s.registry.commands[command]? = some c)

include h hformed hshows hlower hwords haccepts hc

/-- At a fixed position of a command that accepts the line, the command stays
alive and completion leaves the token alone. -/
theorem keeps_accepted_token (hposition : position < c.fixed)
    (halive : s.Alive position command) :
    s.Alive (position + 1) command ∧
      Offers s.groups position command (s.narrowingAt position).completed.text := by
  obtain ⟨d, hd, hfixed, hoffers⟩ := haccepts
  obtain rfl : c = d := Option.some.inj (hc.symm.trans hd)
  have hslots : c.fixed ≤ c.slots.length := hformed c (List.mem_of_getElem? hc)
  have hcovers : s.Covers position command := by
    refine ⟨c, hc, ?_⟩
    cases hlimited : s.limited with
    | false => exact lt_of_lt_of_le hposition hslots
    | true => exact hposition
  have htoken := List.getElem?_eq_getElem (lt_of_lt_of_le hposition hfixed)
  have hoffered := hoffers position hposition _ htoken
  have : Nonempty W := ⟨w⟩
  obtain ⟨hnext, htext⟩ := keeps_offered_token
    (fun _ _ _ hselected => (h.seesOnly hformed hlower).selectedAlias hselected) halive hcovers
    htoken (hshows.alias_satisfies hlower hc (lt_of_lt_of_le hposition hslots) hoffered)
    (hwords _ (List.mem_of_getElem? htoken)) hoffered
  exact ⟨hnext, by rwa [htext]⟩

theorem alive_of_accepts (hposition : position ≤ c.fixed) : s.Alive position command := by
  induction position with
  | zero => exact (alive_zero s command).mpr (List.getElem?_eq_some_iff.mp hc).1
  | succ position ih =>
      exact (h.keeps_accepted_token hformed hshows hlower hwords haccepts hc hposition
        (ih (Nat.le_of_lt hposition))).1

end IsSnapshot

end Scan

/-- Completion never breaks a line that runs a command: the completed line runs
that command or one in front of it. -/
theorem exists_resolveExact_autocomplete_le {W : Type} {r : Registry W}
    (hformed : r.WellFormed) (hsteady : r.Steady)
    (haliases : r.AliasesSatisfy fun a => IsLowerAscii a ∧ BlankFree a)
    (options : CompletionOptions) {line : Text} {index : ℕ} {w w' : W}
    (h : r.resolveExact (tokenize line) w = .ok (some index) w') (w₁ : W) :
    ∃ completion w₂, autocomplete r options line w₁ = .ok completion w₂ ∧
      ∃ j ≤ index, AlwaysGives (r.resolveExact (tokenize completion.line)) (some j) := by
  obtain ⟨table, hshows⟩ := hsteady.exists_shows
  have haccepts := Registry.accepts_of_resolveExact hshows hformed h
  obtain ⟨worlds, hsnapshot⟩ :=
    hshows.exists_isSnapshot hformed options.limitToFixed (tokenize line) w₁
  refine ⟨_, _, Scan.IsSnapshot.autocomplete_eq hsnapshot, ?_⟩
  have hlower := haliases.imp fun _ ha => ha.1
  have hblank := haliases.imp fun _ ha => ha.2
  apply Registry.Accepts.exists_resolveExact_le hshows hformed
  by_cases hreplace : options.replaceLine = true
  · obtain ⟨c, hc, hfixed, -⟩ := id haccepts
    refine Scan.IsSnapshot.accepts_completed hsnapshot hformed hblank hreplace hc hfixed ?_
    intro position hposition
    have hwords : ∀ t ∈ tokenize line, t ≠ [] := fun t ht => (isWord_of_mem_tokenize ht).1
    have halive := hsnapshot.alive_of_accepts hformed hshows hlower hwords haccepts hc
      hposition.le
    exact (hsnapshot.keeps_accepted_token hformed hshows hlower hwords haccepts hc hposition
      halive).2
  · simpa [Completion.ofNarrowings, hreplace] using haccepts

/-- Two commands; the aliases of the first one are longer than those of the
second. -/
def Registry.overlapping : Registry Unit :=
  .ofGroups Unit [([[["gone".toList, "go!".toList]], [["x".toList]]], 2),
    ([[["go".toList]], [["alpha".toList, "al".toList]]], 1)]

theorem Registry.overlapping_steady : overlapping.Steady :=
  (Registry.ofGroups_shows Unit _).steady

theorem exists_resolveExact_autocomplete_le_overlapping :
    Registry.overlapping.WellFormed ∧ Registry.overlapping.Steady ∧
      Registry.overlapping.AliasesSatisfy (fun a => IsLowerAscii a ∧ BlankFree a) ∧
      Registry.overlapping.resolveExact (tokenize "go AL".toList) () = .ok (some 1) () ∧
      ∃ completion w₂,
        autocomplete Registry.overlapping .full "go AL".toList () = .ok completion w₂ ∧
        ∃ j ≤ 1, AlwaysGives (Registry.overlapping.resolveExact (tokenize completion.line))
          (some j) := by
  have hformed : Registry.overlapping.WellFormed := by decide
  have haliases : Registry.overlapping.AliasesSatisfy fun a => IsLowerAscii a ∧ BlankFree a :=
    Registry.ofGroups_aliasesSatisfy Unit (by decide)
  have hsteady := Registry.overlapping_steady
  have hresolved : Registry.overlapping.resolveExact (tokenize "go AL".toList) () =
      .ok (some 1) () := by
    rfl
  exact ⟨hformed, hsteady, haliases, hresolved,
    exists_resolveExact_autocomplete_le hformed hsteady haliases .full hresolved ()⟩

end AliasConsole
