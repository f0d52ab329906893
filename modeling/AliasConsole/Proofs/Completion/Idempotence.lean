import AliasConsole.Completion.Basic
import AliasConsole.Proofs.Completion.LongerQuery
import AliasConsole.Proofs.Completion.Reassembly
import Mathlib.Data.List.Forall2

/-!
# Completing a completed line

If no token of a line is replaced from the second bucket, a completed line is
its own completion.  Position by position the second scan has the same commands
alive and finds the same matches in the preferred bucket, ranked in the same
order, because all their ranks improve alike.
-/

namespace AliasConsole

/-- What a suggestion is about: position, command, group, aliases and best alias. -/
def Suggestion.subject (x : Suggestion) : ℕ × ℕ × ℕ × AliasGroup × Text :=
  (x.position, x.found.command, x.found.group, x.found.aliases, x.found.best)

/-- What the suggestions of the preferred bucket are about, in their order. -/
def startSubjects (suggestions : List Suggestion) : List (ℕ × ℕ × ℕ × AliasGroup × Text) :=
  (suggestions.filter (·.bucket == .startsWith)).map Suggestion.subject

theorem startSubjects_append (a b : List Suggestion) :
    startSubjects (a ++ b) = startSubjects a ++ startSubjects b := by
  rw [startSubjects, List.filter_append, List.map_append]
  rfl

theorem completedLine_or_locked (spaceAfterLast : Bool) {tokens : List CompletedToken}
    {last : CompletedToken} (hlast : tokens.getLast? = some last) :
    completedLine (spaceAfterLast || last.locked) tokens = completedLine spaceAfterLast tokens := by
  fun_induction completedLine spaceAfterLast tokens with
  | case1 => cases hlast
  | case2 token =>
      obtain rfl : token = last := Option.some.inj hlast
      rw [completedLine, Bool.or_assoc, Bool.or_self]
  | case3 token rest hrest ih =>
      have hnonempty : rest ≠ [] := fun hnil => hrest hnil
      rw [List.getLast?_cons_of_ne_nil hnonempty] at hlast
      rw [completedLine, ih hlast]
      exact hrest

/-- A completed line of words says itself whether it goes on with a space. -/
theorem completedLine_endsWithSpace (spaceAfterLast : Bool) {tokens : List CompletedToken}
    (htokens : ∀ token ∈ tokens, IsWord token.text) :
    completedLine (endsWithSpace (completedLine spaceAfterLast tokens)) tokens =
      completedLine spaceAfterLast tokens := by
  cases hlast : tokens.getLast? with
  | none =>
      rw [List.getLast?_eq_none_iff.mp hlast]
      rfl
  | some last =>
      rw [endsWithSpace_completedLine spaceAfterLast htokens hlast,
        completedLine_or_locked spaceAfterLast hlast]

namespace Narrowing

theorem startSubjects_suggestions (n : Narrowing) (position : ℕ) :
    startSubjects (n.suggestions position) =
      (n.ranked .startsWith).map fun m => (position, m.command, m.group, m.aliases, m.best) := by
  simp [startSubjects, suggestions, List.filter_map, Function.comp_def, Suggestion.subject]

theorem Repeats.startSubjects_eq {n n' : Narrowing} (h : n.Repeats n') (position : ℕ) :
    startSubjects (n'.suggestions position) = startSubjects (n.suggestions position) := by
  obtain ⟨more, hstarts⟩ := h.starts
  have hranked : n'.ranked .startsWith = (n.ranked .startsWith).map (Match.lengthened more) := by
    rw [ranked, ranked, hstarts]
    refine (List.map_mergeSort fun a _ b _ => ?_).symm
    rw [Match.better_lengthened]
  rw [startSubjects_suggestions, startSubjects_suggestions, hranked, List.map_map]
  rfl

theorem startSubjects_suggestionsFrom {narrowings again : List Narrowing}
    (h : List.Forall₂ Repeats narrowings again) (position : ℕ) :
    startSubjects (suggestionsFrom position again) =
      startSubjects (suggestionsFrom position narrowings) := by
  induction h generalizing position with
  | nil => rfl
  | cons hhead _ ih =>
      rw [suggestionsFrom, suggestionsFrom, startSubjects_append, startSubjects_append,
        hhead.startSubjects_eq, ih]

theorem map_completed_of_repeats {narrowings again : List Narrowing}
    (h : List.Forall₂ Repeats narrowings again) :
    again.map completed = narrowings.map completed := by
  induction h with
  | nil => rfl
  | cons hhead _ ih => rw [List.map_cons, List.map_cons, hhead.completed, ih]

end Narrowing

namespace Scan

variable {W : Type}

/-- The scan of the completed tokens. -/
def again (s : Scan W) : Scan W :=
  { s with tokens := s.narrowings.map fun n => n.completed.text }

/-- Every token of the scan that is replaced is completed from the preferred
bucket. -/
def OnlyExtends (s : Scan W) : Prop :=
  ∀ position < s.tokens.length, (s.narrowingAt position).completed.replaced = true →
    s.IsSelected position .startsWith

variable {s : Scan W} {position : ℕ}

theorem length_again : s.again.tokens.length = s.tokens.length := by
  simp [again, narrowings]

theorem getElem?_again (hposition : position < s.tokens.length) :
    s.again.tokens[position]? = some (s.narrowingAt position).completed.text := by
  rw [again, List.getElem?_map, getElem?_narrowings.mpr ⟨hposition, rfl⟩, Option.map_some]

theorem IsSelected.inBucket_ne_nil (h : s.IsSelected position .startsWith)
    (hposition : position < s.tokens.length) :
    (s.narrowingAt position).inBucket .startsWith ≠ [] := by
  obtain ⟨command, group, hmatch⟩ := h
  obtain ⟨m, hm, -, -, hbucket⟩ := (isMatch_iff hposition).mp hmatch
  exact List.ne_nil_of_mem (Narrowing.mem_inBucket_iff.mpr ⟨hm, hbucket⟩)

section Again

variable (htokens : ∀ t ∈ s.tokens, IsAscii t ∧ t ≠ []) (hsees : s.SeesOnly IsAscii)
  (honly : s.OnlyExtends)

include htokens hsees honly

theorem repeats_of_survivors (hposition : position < s.tokens.length)
    (hsurvivors : s.again.survivors position = s.survivors position) :
    (s.narrowingAt position).Repeats (s.again.narrowingAt position) := by
  have htoken := List.getElem?_eq_getElem hposition
  have hfirst : s.narrowingAt position =
      Narrowing.of s.tokens[position] (s.shown position (s.survivors position)) := by
    rw [narrowingAt, narrowingOf, List.getD_eq_getElem?_getD, htoken, Option.getD_some]
  have hsecond : s.again.narrowingAt position =
      Narrowing.of (s.narrowingAt position).completed.text
        (s.shown position (s.survivors position)) := by
    rw [narrowingAt, narrowingOf, List.getD_eq_getElem?_getD, getElem?_again hposition,
      Option.getD_some, hsurvivors]
    rfl
  obtain ⟨hascii, hne⟩ := htokens _ (List.getElem_mem hposition)
  have hbests : ∀ m ∈ (s.narrowingAt position).selected, IsAscii m.best := by
    intro m hm
    have hmem : m.best ∈ (s.selectedAliases position).map fun x => x.2.2 := by
      rw [map_selectedAliases]
      exact List.mem_map_of_mem hm
    obtain ⟨command, group, hselected⟩ := (mem_selectedAliases_iff hposition).mp hmem
    exact hsees.selectedAlias hselected
  have hstarts : (s.narrowingAt position).completed.replaced = true →
      (s.narrowingAt position).inBucket .startsWith ≠ [] := fun hreplaced =>
    (honly position hposition hreplaced).inBucket_ne_nil hposition
  rw [hsecond]
  rw [hfirst] at hbests hstarts ⊢
  exact Narrowing.repeats_of_completed hascii hne hbests hstarts

theorem survivors_again (hposition : position ≤ s.tokens.length) :
    s.again.survivors position = s.survivors position := by
  induction position with
  | zero => rfl
  | succ position ih =>
      have hsurvivors := ih (Nat.le_of_lt hposition)
      have hrepeats := repeats_of_survivors htokens hsees honly hposition hsurvivors
      rw [survivors, survivors, hsurvivors]
      refine List.filter_congr fun e _ => ?_
      have hkeeps := hrepeats.keeps e.2
      rwa [narrowingAt, hsurvivors] at hkeeps

theorem forall₂_repeats_again :
    List.Forall₂ Narrowing.Repeats s.narrowings s.again.narrowings := by
  rw [narrowings, narrowings, length_again, List.forall₂_map_left_iff,
    List.forall₂_map_right_iff, List.forall₂_same]
  intro position hposition
  have hlt := List.mem_range.mp hposition
  exact repeats_of_survivors htokens hsees honly hlt
    (survivors_again htokens hsees honly hlt.le)

end Again

end Scan

namespace Completion

variable {options : CompletionOptions} {line : Text} {narrowings again : List Narrowing}

/-- Completing a completed line with the same completed tokens leaves it as it is. -/
theorem line_ofNarrowings_again (hreplace : options.replaceLine = true)
    (hwords : ∀ n ∈ narrowings, IsWord n.completed.text)
    (hcompleted : again.map Narrowing.completed = narrowings.map Narrowing.completed) :
    (ofNarrowings options (ofNarrowings options line narrowings).line again).line =
      (ofNarrowings options line narrowings).line := by
  simp only [ofNarrowings, hcompleted, hreplace, Bool.true_and]
  split_ifs with hnonempty
  · exact completedLine_endsWithSpace _ (List.forall_mem_map.mpr hwords)
  · rfl

theorem startSubjects_ofNarrowings {line' : Text}
    (h : List.Forall₂ Narrowing.Repeats narrowings again) :
    startSubjects (ofNarrowings options line' again).suggestions =
      startSubjects (ofNarrowings options line narrowings).suggestions := by
  simp only [ofNarrowings]
  split_ifs
  · exact Narrowing.startSubjects_suggestionsFrom h 0
  · rfl

theorem getElem?_tokens_ofLine {W : Type} {r : Registry W} {table : GroupTable}
    {position : ℕ} (hposition : position < (tokenize line).length) :
    (ofNarrowings options line (Scan.ofLine r options line table).narrowings).tokens[position]? =
      some ((Scan.ofLine r options line table).narrowingAt position).completed := by
  rw [ofNarrowings, List.getElem?_map, Scan.getElem?_narrowings.mpr ⟨hposition, rfl⟩,
    Option.map_some]

theorem ofLine_line {W : Type} {r : Registry W} {table : GroupTable}
    (hreplace : options.replaceLine = true)
    (hblank : (Scan.ofLine r options line table).SeesOnly BlankFree) :
    Scan.ofLine r options
        (ofNarrowings options line (Scan.ofLine r options line table).narrowings).line table =
      (Scan.ofLine r options line table).again := by
  rw [Scan.ofLine, hblank.tokenize_line hreplace]
  rfl

/-- A line that is not to be replaced is answered as it was typed. -/
theorem line_ofNarrowings_of_keep (hkeep : options.replaceLine = false) :
    (ofNarrowings options line narrowings).line = line := by
  simp [ofNarrowings, hkeep]

end Completion

/-- Completing a completed line leaves the line and its tokens as they are and
names the same matches in the preferred bucket, if completion only extended
tokens: if every token that it replaced has a match that starts with it. -/
theorem autocomplete_autocomplete {W : Type} {r : Registry W} {table : GroupTable}
    (hshows : r.Shows table) (hformed : r.WellFormed)
    (haliases : r.AliasesSatisfy fun a => IsAscii a ∧ BlankFree a)
    (options : CompletionOptions) {line : Text} (hline : IsAscii line) (w : W) :
    ∃ first w₁, autocomplete r options line w = .ok first w₁ ∧
      ((∀ position token, first.tokens[position]? = some token → token.replaced = true →
          (Scan.ofLine r options line table).IsSelected position .startsWith) →
        ∀ w₂, ∃ second w₃, autocomplete r options first.line w₂ = .ok second w₃ ∧
          second.line = first.line ∧ second.tokens = first.tokens ∧
          startSubjects second.suggestions = startSubjects first.suggestions) := by
  obtain ⟨worlds, hsnapshot⟩ :=
    hshows.exists_isSnapshot hformed options.limitToFixed (tokenize line) w
  refine ⟨_, _, hsnapshot.autocomplete_eq, fun hstarts w₂ => ?_⟩
  by_cases hreplace : options.replaceLine = true
  · have hblank := hsnapshot.seesOnly hformed (haliases.imp fun _ h => h.2)
    have hascii := hsnapshot.seesOnly hformed (haliases.imp fun _ h => h.1)
    have htokens : ∀ t ∈ tokenize line, IsAscii t ∧ t ≠ [] := fun t ht =>
      ⟨fun c hc => hline c (subset_of_mem_words ht hc), (isWord_of_mem_tokenize ht).1⟩
    have honly : (Scan.ofLine r options line table).OnlyExtends := by
      intro position hposition hreplaced
      exact hstarts position _ (Completion.getElem?_tokens_ofLine hposition) hreplaced
    have hrepeats := Scan.forall₂_repeats_again htokens hascii honly
    have hcompleted := Narrowing.map_completed_of_repeats hrepeats
    obtain ⟨worlds₂, hsnapshot₂⟩ := hshows.exists_isSnapshot hformed options.limitToFixed
      (tokenize (Completion.ofNarrowings options line
        (Scan.ofLine r options line table).narrowings).line) w₂
    refine ⟨_, _, hsnapshot₂.autocomplete_eq, ?_⟩
    rw [Completion.ofLine_line hreplace hblank]
    exact ⟨Completion.line_ofNarrowings_again hreplace hblank.isWord_completed hcompleted,
      hcompleted, Completion.startSubjects_ofNarrowings hrepeats⟩
  · have hkeep := Bool.eq_false_of_not_eq_true hreplace
    obtain ⟨worlds₂, hsnapshot₂⟩ :=
      hshows.exists_isSnapshot hformed options.limitToFixed (tokenize line) w₂
    rw [Completion.line_ofNarrowings_of_keep hkeep]
    exact ⟨_, _, hsnapshot₂.autocomplete_eq, Completion.line_ofNarrowings_of_keep hkeep, rfl, rfl⟩

/-- Two commands that begin alike; the first one takes a word with capitals. -/
def travels : List (List (List AliasGroup) × ℕ) :=
  [([[["Teleport".toList, "tp".toList]], [["Alpha".toList], ["ALPs".toList, "al".toList]]], 2),
    ([[["tell".toList]]], 1)]

theorem autocomplete_autocomplete_travels :
    (Registry.ofGroups Unit travels).Shows (Registry.tableOf travels) ∧
      (Registry.ofGroups Unit travels).WellFormed ∧
      (Registry.ofGroups Unit travels).AliasesSatisfy (fun a => IsAscii a ∧ BlankFree a) ∧
      IsAscii "te al".toList ∧
      ∃ first w₁, autocomplete (Registry.ofGroups Unit travels) .full "te al".toList () =
          .ok first w₁ ∧
        ∀ w₂, ∃ second w₃, autocomplete (Registry.ofGroups Unit travels) .full first.line w₂ =
            .ok second w₃ ∧
          second.line = first.line ∧ second.tokens = first.tokens ∧
          startSubjects second.suggestions = startSubjects first.suggestions := by
  have hshows := Registry.ofGroups_shows Unit travels
  have hformed : (Registry.ofGroups Unit travels).WellFormed := by decide
  have haliases : (Registry.ofGroups Unit travels).AliasesSatisfy
      fun a => IsAscii a ∧ BlankFree a :=
    Registry.ofGroups_aliasesSatisfy Unit (by decide)
  have hline : IsAscii "te al".toList := by decide
  have hstarts : ∀ position < 2, ∃ m ∈ ((Scan.ofLine (Registry.ofGroups Unit travels) .full
      "te al".toList (Registry.tableOf travels)).narrowingAt position).found,
        m.bucket = .startsWith := by
    decide
  obtain ⟨first, w₁, hfirst, hagain⟩ :=
    autocomplete_autocomplete hshows hformed haliases .full hline ()
  refine ⟨hshows, hformed, haliases, hline, first, w₁, hfirst, hagain ?_⟩
  intro position token htoken _
  have hlength : first.tokens.length = 2 := by
    rw [← (EStateM.Result.ok.inj hfirst).1]
    rfl
  have hposition : position < 2 := hlength ▸ (List.getElem?_eq_some_iff.mp htoken).1
  obtain ⟨m, hm, hbucket⟩ := hstarts position hposition
  exact ⟨m.command, m.group, (Scan.isMatch_iff hposition).mpr ⟨m, hm, rfl, rfl, hbucket⟩⟩

end AliasConsole
