import AliasConsole.Proofs.Completion.CommonPrefix
import AliasConsole.Proofs.Resolution
import AliasConsole.Proofs.Text.Words
import Mathlib.Data.List.Basic

/-!
# Putting the line together again

Completed tokens are put into a line with spaces between them.  If the aliases
that a call sees hold no blanks, completed tokens are words, and cutting the
completed line gives the completed tokens back.  The line ends in a blank
exactly if the typed line does or the last token is locked.
-/

namespace AliasConsole

/-- The text has no blank in it. -/
def BlankFree (t : Text) : Prop :=
  ∀ c ∈ t, isBlank c = false

instance : DecidablePred BlankFree := fun t =>
  List.decidableBAll (fun c => isBlank c = false) t

theorem tokenize_completedLine (spaceAfterLast : Bool) {tokens : List CompletedToken}
    (htokens : ∀ token ∈ tokens, IsWord token.text) :
    tokenize (completedLine spaceAfterLast tokens) = tokens.map CompletedToken.text := by
  have hspace : isBlank ' ' = true := by decide
  fun_induction completedLine spaceAfterLast tokens with
  | case1 => rfl
  | case2 token =>
      have hword : IsWord token.text := htokens token (by simp)
      by_cases hend : (spaceAfterLast || token.locked) = true
      · rw [if_pos hend]
        rw [tokenize, words_append_of_isWord hword (by simpa using hspace),
          words_cons_of_blank hspace]
        rfl
      · rw [if_neg hend, List.append_nil]
        exact words_of_isWord hword
  | case3 token rest hrest ih =>
      have hword : IsWord token.text := htokens token (by simp)
      have htail := ih fun t ht => htokens t (List.mem_cons_of_mem token ht)
      rw [tokenize] at htail ⊢
      rw [words_append_of_isWord hword (by simpa using hspace), words_cons_of_blank hspace,
        htail, List.map_cons]

theorem completedLine_ne_nil (spaceAfterLast : Bool) {tokens : List CompletedToken}
    (htokens : ∀ token ∈ tokens, IsWord token.text) (hnonempty : tokens ≠ []) :
    completedLine spaceAfterLast tokens ≠ [] := by
  cases tokens with
  | nil => exact absurd rfl hnonempty
  | cons token rest =>
      have hword : IsWord token.text := htokens token (by simp)
      cases rest with
      | nil => simp [completedLine, hword.1]
      | cons next more => simp [completedLine]

theorem endsWithSpace_completedLine (spaceAfterLast : Bool) {tokens : List CompletedToken}
    (htokens : ∀ token ∈ tokens, IsWord token.text) {last : CompletedToken}
    (hlast : tokens.getLast? = some last) :
    endsWithSpace (completedLine spaceAfterLast tokens) = (spaceAfterLast || last.locked) := by
  fun_induction completedLine spaceAfterLast tokens with
  | case1 => cases hlast
  | case2 token =>
      obtain rfl : token = last := Option.some.inj hlast
      cases hend : (spaceAfterLast || token.locked) with
      | true => exact endsInBlank_append (List.cons_ne_nil ' ' [])
      | false =>
          rw [if_neg Bool.false_ne_true, List.append_nil]
          exact endsInBlank_of_isWord (htokens token (by simp))
  | case3 token rest hrest ih =>
      have hnonempty : rest ≠ [] := fun hnil => hrest hnil
      have hwords : ∀ t ∈ rest, IsWord t.text := fun t ht =>
        htokens t (List.mem_cons_of_mem token ht)
      have hline := completedLine_ne_nil spaceAfterLast hwords hnonempty
      rw [List.getLast?_cons_of_ne_nil hnonempty] at hlast
      rw [← ih hwords hlast, endsWithSpace, endsInBlank_append (List.cons_ne_nil _ _)]
      exact endsInBlank_append (t := [' ']) hline

theorem IsCompletion.isWord {typed : Text} {token : CompletedToken} {aliases : List Text}
    (h : IsCompletion typed token aliases) (htyped : IsWord typed)
    (haliases : ∀ a ∈ aliases, BlankFree a) : IsWord token.text := by
  cases aliases with
  | nil =>
      rw [IsCompletion] at h
      rwa [h]
  | cons first rest =>
      obtain ⟨k, hk, hzero, hpos⟩ := h
      by_cases hk0 : k = 0
      · rwa [hzero hk0]
      · rw [(hpos hk0).1]
        have hlength : k ≤ first.length := (hk.1 first (by simp)).1
        refine ⟨?_, fun c hc => haliases first (by simp) c (List.mem_of_mem_take hc)⟩
        intro hnil
        rw [List.take_eq_nil_iff] at hnil
        rcases hnil with hnil | hnil
        · exact hk0 hnil
        · rw [hnil] at hlength
          exact hk0 (Nat.le_zero.mp hlength)

/-- If the completed tokens are words, the completed line has them as its
tokens. -/
theorem tokenize_ofNarrowings {options : CompletionOptions}
    (hreplace : options.replaceLine = true) {line : Text} {narrowings : List Narrowing}
    (hlength : narrowings.length = (tokenize line).length)
    (hwords : ∀ n ∈ narrowings, IsWord n.completed.text) :
    tokenize (Completion.ofNarrowings options line narrowings).line =
      narrowings.map fun n => n.completed.text := by
  simp only [Completion.ofNarrowings, hreplace, Bool.true_and]
  cases narrowings with
  | nil =>
      rw [List.length_nil] at hlength
      simpa using List.eq_nil_of_length_eq_zero hlength.symm
  | cons n rest =>
      rw [if_pos (by simp), tokenize_completedLine, List.map_map]
      · rfl
      · intro token htoken
        obtain ⟨m, hm, rfl⟩ := List.mem_map.mp htoken
        exact hwords m hm

/-- If the completed tokens are words, the completed line ends in a blank exactly
if the typed line does or the last completed token is locked. -/
theorem endsWithSpace_ofNarrowings {options : CompletionOptions}
    (hreplace : options.replaceLine = true) {line : Text} {narrowings : List Narrowing}
    (hwords : ∀ n ∈ narrowings, IsWord n.completed.text) :
    endsWithSpace (Completion.ofNarrowings options line narrowings).line = true ↔
      endsWithSpace line = true ∨
        ∃ last, (Completion.ofNarrowings options line narrowings).tokens.getLast? = some last ∧
          last.locked = true := by
  cases narrowings with
  | nil => simp [Completion.ofNarrowings]
  | cons n rest =>
      have htokens : ∀ token ∈ (n :: rest).map Narrowing.completed, IsWord token.text := by
        intro token htoken
        obtain ⟨m, hm, rfl⟩ := List.mem_map.mp htoken
        exact hwords m hm
      have hlast := List.getLast?_eq_getLast_of_ne_nil
        (List.cons_ne_nil n.completed (rest.map Narrowing.completed))
      have hline := endsWithSpace_completedLine (endsWithSpace line) htokens hlast
      simp only [Completion.ofNarrowings, hreplace, Bool.true_and]
      rw [if_pos (by simp), hline, List.map_cons, hlast]
      simp

namespace Scan

variable {W : Type} {r : Registry W} {options : CompletionOptions} {line : Text}
  {table : GroupTable}

theorem SeesOnly.isWord_completed (h : (ofLine r options line table).SeesOnly BlankFree) :
    ∀ n ∈ (ofLine r options line table).narrowings, IsWord n.completed.text := by
  intro n hn
  obtain ⟨position, hposition, rfl⟩ := List.mem_map.mp hn
  rw [List.mem_range] at hposition
  have htyped := List.getElem?_eq_getElem hposition
  refine (isCompletion_completed htyped).isWord
    (isWord_of_mem_tokenize (List.mem_of_getElem? htyped)) ?_
  intro a ha
  obtain ⟨command, group, hselected⟩ := (mem_selectedAliases_iff hposition).mp ha
  exact h.selectedAlias hselected

theorem length_narrowings :
    (ofLine r options line table).narrowings.length = (tokenize line).length := by
  simp [narrowings]

/-- If no alias that is seen has a blank, the completed line has the completed
tokens as its tokens. -/
theorem SeesOnly.tokenize_line (h : (ofLine r options line table).SeesOnly BlankFree)
    (hreplace : options.replaceLine = true) :
    tokenize (Completion.ofNarrowings options line
      (ofLine r options line table).narrowings).line =
      (ofLine r options line table).narrowings.map fun n => n.completed.text :=
  tokenize_ofNarrowings hreplace length_narrowings h.isWord_completed

end Scan

namespace Scan.IsSnapshot

variable {W : Type} {r : Registry W} {options : CompletionOptions} {line : Text}
  {table : GroupTable} {w : W} {worlds : ℕ → ℕ → W}

/-- A command accepts the completed line if it offers the completed tokens at
its fixed positions. -/
theorem accepts_completed (h : (ofLine r options line table).IsSnapshot w worlds)
    (hformed : r.WellFormed) (hblank : r.AliasesSatisfy BlankFree)
    (hreplace : options.replaceLine = true) {index : ℕ} {c : Command W}
    (hc : r.commands[index]? = some c) (hfixed : c.fixed ≤ (tokenize line).length)
    (hoffers : ∀ position < c.fixed, Offers table position index
      ((ofLine r options line table).narrowingAt position).completed.text) :
    r.Accepts table (tokenize (Completion.ofNarrowings options line
      (ofLine r options line table).narrowings).line) index := by
  rw [(h.seesOnly hformed hblank).tokenize_line hreplace]
  refine ⟨c, hc, by rwa [List.length_map, length_narrowings], ?_⟩
  intro position hposition token htoken
  obtain ⟨n, hn, rfl⟩ := Option.map_eq_some_iff.mp (List.getElem?_map ▸ htoken)
  obtain ⟨-, rfl⟩ := getElem?_narrowings.mp hn
  exact hoffers position hposition

end Scan.IsSnapshot

/-- A call gives a completion exactly if it has a snapshot.  If no alias that the
call sees has a blank, the tokens of the completed line are the completed
tokens, as many as were typed, and the line ends in a blank exactly if the typed
line does or the last completed token is locked.  A line without tokens stays as
it is. -/
theorem tokenize_autocomplete_line {W : Type} {r : Registry W} {options : CompletionOptions}
    (hreplace : options.replaceLine = true) (line : Text) (w : W) :
    ((∃ completion last, autocomplete r options line w = .ok completion last) ↔
        ∃ table worlds, (Scan.ofLine r options line table).IsSnapshot w worlds) ∧
      ∀ table worlds, (Scan.ofLine r options line table).IsSnapshot w worlds →
        (Scan.ofLine r options line table).SeesOnly BlankFree →
        ∃ completion, autocomplete r options line w =
            .ok completion (worlds (tokenize line).length 0) ∧
          tokenize completion.line = completion.tokens.map CompletedToken.text ∧
          completion.tokens.length = (tokenize line).length ∧
          (endsWithSpace completion.line = true ↔ endsWithSpace line = true ∨
            ∃ last, completion.tokens.getLast? = some last ∧ last.locked = true) ∧
          (tokenize line = [] → completion.line = line) := by
  refine ⟨Scan.exists_autocomplete_iff, fun table worlds hsnapshot hblank => ?_⟩
  refine ⟨_, hsnapshot.autocomplete_eq, ?_, ?_,
    endsWithSpace_ofNarrowings hreplace hblank.isWord_completed, ?_⟩
  · rw [hblank.tokenize_line hreplace, Completion.ofNarrowings, List.map_map]
    rfl
  · rw [Completion.ofNarrowings, List.length_map, Scan.length_narrowings]
  · intro hnil
    have hnarrowings : (Scan.ofLine r options line table).narrowings.length =
        (tokenize line).length := Scan.length_narrowings
    rw [hnil, List.length_nil, List.length_eq_zero_iff] at hnarrowings
    rw [hnarrowings]
    simp [Completion.ofNarrowings]

/-- One command; its alias has a blank at every evaluation but the first. -/
def Registry.lengthening : Registry ℕ :=
  { commands :=
      [⟨[.live fun count =>
          .ok [["go".toList ++ List.replicate count ' ' ++ List.replicate count 'x']] (count + 1)],
        1, fun _ => Script.say []⟩]
    literals := [] }

theorem Registry.lengthening_neverFails : lengthening.NeverFails := by
  intro c hc slot hslot w
  obtain rfl := List.mem_singleton.mp hc
  obtain rfl := List.mem_singleton.mp hslot
  exact ⟨_, _, rfl⟩

theorem tokenize_autocomplete_line_lengthening :
    CompletionOptions.full.replaceLine = true ∧ ∃ table worlds,
      (Scan.ofLine Registry.lengthening .full " G".toList table).IsSnapshot 0 worlds ∧
      (Scan.ofLine Registry.lengthening .full " G".toList table).SeesOnly BlankFree ∧
      ∃ completion, autocomplete Registry.lengthening .full " G".toList 0 =
          .ok completion (worlds (tokenize " G".toList).length 0) ∧
        tokenize completion.line = completion.tokens.map CompletedToken.text ∧
        completion.tokens.length = (tokenize " G".toList).length ∧
        (endsWithSpace completion.line = true ↔ endsWithSpace " G".toList = true ∨
          ∃ last, completion.tokens.getLast? = some last ∧ last.locked = true) ∧
        (tokenize " G".toList = [] → completion.line = " G".toList) := by
  obtain ⟨table, worlds, hsnapshot⟩ := Registry.exists_isSnapshot
    Registry.lengthening_neverFails (by decide) false (tokenize " G".toList) 0
  have hblank : (Scan.ofLine Registry.lengthening .full " G".toList table).SeesOnly
      BlankFree := by
    rintro position hposition command halive ⟨c, hc, hreach⟩
    obtain rfl : position = 0 := Nat.lt_one_iff.mp hposition
    obtain rfl : command = 0 :=
      Nat.lt_one_iff.mp ((Scan.alive_zero _ _).mp halive)
    have hseen := (hsnapshot.evaluation 0 hposition).evaluated 0 c hc halive hreach
    obtain rfl := Option.some.inj hc
    rw [hsnapshot.start] at hseen
    rw [← (EStateM.Result.ok.inj hseen).1]
    decide
  exact ⟨rfl, table, worlds, hsnapshot, hblank,
    (tokenize_autocomplete_line rfl " G".toList 0).2 table worlds hsnapshot hblank⟩

end AliasConsole
