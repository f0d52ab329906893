import AliasConsole.Proofs.Completion.Menu
import AliasConsole.Proofs.Text.CurrentToken

/-!
# Accepting a word of the menu

A word of the menu is the best alias of its group.  Typed in the place of the current token
it is a query itself, and then no text has a better rank than the word, and only texts with
the same lower case have the same rank.  So the group elects the word again, whatever
bucket it was in before, and only its own recasings can stand before it.  Among ASCII texts
the common prefix cannot go beyond the word, so the token is completed to the word.
-/

namespace AliasConsole

/-! ## The rank of a word for itself -/

section Rank

variable {query spelling y : Text} {aliases : AliasGroup}

theorem key_rank_self_le (query y : Text) : (rank query query).key ≤ (rank query y).key :=
  (key_le_iff List.prefix_rfl).mpr fun hstart => hstart.length_le

/-- Only recasings of a query have the rank of the query. -/
theorem key_rank_le_self_iff :
    (rank query y).key ≤ (rank query query).key ↔ Text.lower y = Text.lower query := by
  rw [← not_lt, key_lt_iff List.prefix_rfl, Classical.not_imp, not_lt]
  constructor
  · rintro ⟨hstart, hlength⟩
    exact (hstart.eq_of_length_le hlength).symm
  · intro heq
    rw [heq]
    exact ⟨List.prefix_rfl, le_rfl⟩

theorem IsBest.self (h : IsBest query aliases spelling) : IsBest spelling aliases spelling := by
  obtain ⟨before, after, hsplit, hbefore, -⟩ := h.firstLeast
  refine ⟨?_, before, after, hsplit, fun y hy => ?_, fun y _ => key_rank_self_le spelling y⟩
  · rw [rank_position_eq_zero_iff.mpr List.prefix_rfl]
    exact Option.some_ne_none 0
  · rw [← not_le, key_rank_le_self_iff]
    intro heq
    have hsame : rank query y = rank query spelling := by rw [rank, rank, heq]
    exact absurd (hbefore y hy) (congrArg Rank.key hsame).not_gt

end Rank

namespace Scan

variable {W : Type} {s : Scan W} {tokens : List Text} {position command group : ℕ}
  {word : Text}

/-! ## The word in the place of a token -/

theorem alive_congr (h : tokens.take position = s.tokens.take position) :
    ({ s with tokens := tokens } : Scan W).Alive position = s.Alive position := by
  induction position with
  | zero => rfl
  | succ position ih =>
      have hbefore : tokens.take position = s.tokens.take position := by
        simpa [List.take_take] using congrArg (List.take position) h
      have htoken : tokens[position]? = s.tokens[position]? := by
        have hlast := congrArg (fun front : List Text => front[position]?) h
        simpa [List.getElem?_take] using hlast
      have hmatch : ∀ alive, ({ s with tokens := tokens } : Scan W).MatchAmong alive position =
          s.MatchAmong alive position := by
        intro alive
        funext command group bucket
        simp only [MatchAmong, Covers, htoken]
      have hselected : ∀ alive, ({ s with tokens := tokens } : Scan W).SelectedAmong alive
          position = s.SelectedAmong alive position := by
        intro alive
        funext bucket
        cases bucket <;> simp only [SelectedAmong, hmatch]
      funext command
      rw [Alive, Alive, ih hbefore, KeptAmong, KeptAmong, hmatch, hselected]

/-- A selected alias in the place of the token is selected again, from the preferred
bucket. -/
theorem IsSelectedAlias.accepted (h : s.IsSelectedAlias position command group word)
    (hbefore : tokens.take position = s.tokens.take position)
    (hword : tokens[position]? = some word) :
    ({ s with tokens := tokens } : Scan W).IsSelectedAlias position command group word ∧
      ({ s with tokens := tokens } : Scan W).IsSelected position .startsWith := by
  obtain ⟨⟨bucket, -, halive, hcovers, -⟩, typed, aliases, -, hgroup, hbest⟩ := h
  have hself : IsBest (Text.lower word) aliases word := by
    have hown := hbest.self
    refine ⟨by rw [rank_lower]; exact hown.holds, ?_⟩
    simp only [rank_lower]
    exact hown.firstLeast
  have hmem := hself.firstLeast.mem
  have hstart : (rank (Text.lower word) word).position = some 0 := by
    rw [rank_lower]
    exact rank_position_eq_zero_iff.mpr List.prefix_rfl
  have hmatch : ({ s with tokens := tokens } : Scan W).IsMatch position command group
      .startsWith := by
    refine ⟨?_, hcovers, word, aliases, hword, hgroup, List.ne_nil_of_mem hmem,
      ⟨word, hmem, hself.holds⟩, iff_of_true rfl ⟨word, hmem, hstart⟩⟩
    rw [alive_congr hbefore]
    exact halive
  have hselected : ({ s with tokens := tokens } : Scan W).IsSelected position .startsWith :=
    ⟨command, group, hmatch⟩
  exact ⟨⟨⟨.startsWith, hselected, hmatch⟩, word, aliases, hword, hgroup, hself⟩, hselected⟩

/-! ## A token that is an alias itself -/

section Accepted

variable (hword : s.tokens[position]? = some word)
  (hselected : s.IsSelectedAlias position command group word) (hascii : s.SeesOnly IsAscii)

include hword hselected hascii

/-- Before the word the menu has nothing but the word in other cases. -/
theorem sameUpToCase_of_menu_eq {before after : List Text}
    (hmenu : (s.narrowingAt position).menu = before ++ word :: after) :
    ∀ u ∈ before, SameUpToCase u word := by
  intro u hu
  have hlt := (List.getElem?_eq_some_iff.mp hword).1
  have hordered := pairwise_key_menu hword
  have hoffered : u ∈ (s.narrowingAt position).menu := hmenu ▸ List.mem_append_left _ hu
  rw [hmenu] at hordered
  have hle := (List.pairwise_append.mp hordered).2.2 u hu word List.mem_cons_self
  obtain ⟨command', group', hother⟩ := (mem_menu_iff hlt).mp hoffered
  exact (map_foldChar_eq_iff (hascii.selectedAlias hother) (hascii.selectedAlias hselected)).mpr
    (key_rank_le_self_iff.mp hle)

/-- All selected aliases begin with the word, so their common prefix is the word. -/
theorem sameUpToCase_completed (hne : word ≠ []) (hstarts : s.IsSelected position .startsWith) :
    SameUpToCase (s.narrowingAt position).completed.text word := by
  have hlt := (List.getElem?_eq_some_iff.mp hword).1
  have hwordAscii : IsAscii word := hascii.selectedAlias hselected
  have hmem : word ∈ (s.selectedAliases position).map fun x => x.2.2 :=
    (mem_selectedAliases_iff hlt).mpr ⟨command, group, hselected⟩
  have hall : ∀ a ∈ (s.selectedAliases position).map fun x => x.2.2,
      IsAscii a ∧ Text.lower word <+: Text.lower a := by
    intro a ha
    obtain ⟨command', group', hother⟩ := (mem_selectedAliases_iff hlt).mp ha
    exact ⟨hascii.selectedAlias hother, hother.starts hstarts hword⟩
  obtain ⟨-, htextAscii, hgrows, hbegins⟩ := (isCompletion_completed hword).grows hne
    (List.ne_nil_of_mem hmem) hwordAscii (fun a ha => (hall a ha).1) fun a ha => (hall a ha).2
  exact (map_foldChar_eq_iff htextAscii hwordAscii).mpr
    (hgrows.eq_of_length_le (hbegins word hmem).length_le).symm

end Accepted

end Scan

section Lines

variable {W : Type} {r : Registry W} {table : GroupTable} {text word : Text}
  {before : List Text} {command group : ℕ}

theorem exists_isSelectedAlias_of_mem_menuAfter {typed : Text}
    (htokens : tokenize text = before ++ [typed])
    (h : word ∈ menuAfter text (Scan.ofLine r .full text table).narrowings) :
    ∃ command group,
      (Scan.ofLine r .full text table).IsSelectedAlias before.length command group word := by
  obtain ⟨hne, hspace⟩ := of_mem_menuAfter h
  have hlast : (tokenize text).length - 1 = before.length := by simp [htokens]
  have hlt : before.length < (tokenize text).length := by simp [htokens]
  rwa [menuAfter_narrowings hne hspace, hlast, Scan.mem_menu_iff hlt] at h

theorem menuAfter_of_isSelectedAlias (htokens : tokenize text = before ++ [word])
    (hspace : endsWithSpace text = false) (hne : word ≠ [])
    (hascii : (Scan.ofLine r .full text table).SeesOnly IsAscii)
    (hselected : (Scan.ofLine r .full text table).IsSelectedAlias before.length command group word)
    (hstarts : (Scan.ofLine r .full text table).IsSelected before.length .startsWith) :
    word ∈ menuAfter text (Scan.ofLine r .full text table).narrowings ∧
      (∀ front after, menuAfter text (Scan.ofLine r .full text table).narrowings =
        front ++ word :: after → ∀ u ∈ front, SameUpToCase u word) ∧
      ∃ token, (Completion.ofNarrowings .full text
          (Scan.ofLine r .full text table).narrowings).tokens.getLast? = some token ∧
        SameUpToCase token.text word := by
  have htoken : (tokenize text)[before.length]? = some word := by
    rw [htokens, List.getElem?_concat_length]
  have hlt := (List.getElem?_eq_some_iff.mp htoken).1
  have hlast : (tokenize text).length - 1 = before.length := by simp [htokens]
  have hsome : tokenize text ≠ [] := by simp [htokens]
  rw [menuAfter_narrowings hsome hspace, Completion.getLast?_tokens_ofLine hsome, hlast]
  exact ⟨(Scan.mem_menu_iff hlt).mpr ⟨command, group, hselected⟩,
    fun front after hmenu => Scan.sameUpToCase_of_menu_eq htoken hselected hascii hmenu,
    _, rfl, Scan.sameUpToCase_completed htoken hselected hascii hne hstarts⟩

end Lines

/-- A word of the menu in the place of the current token is offered again, nothing but the
word in other cases is offered before it, and the token is completed to the word up to
case. -/
theorem suggest_replaceCurrent {W : Type} {r : Registry W} (hsteady : r.Steady)
    (hformed : r.WellFormed) (haliases : r.AliasesSatisfy fun a => IsAscii a ∧ BlankFree a)
    (text : Text) :
    ∃ words, AlwaysGives (suggest r text) words ∧
      ∀ word ∈ words, ∃ words' completion,
        AlwaysGives (suggest r (replaceCurrent text word)) words' ∧
        AlwaysGives (autocomplete r .full (replaceCurrent text word)) completion ∧
        word ∈ words' ∧
        (∀ front after, words' = front ++ word :: after → ∀ u ∈ front, SameUpToCase u word) ∧
        ∃ token, completion.tokens.getLast? = some token ∧ SameUpToCase token.text word := by
  rcases isEmpty_or_nonempty W with hempty | hworld
  · exact ⟨[], fun w => (hempty.false w).elim, List.forall_mem_nil _⟩
  obtain ⟨table, hshows⟩ := hsteady.exists_shows
  have hsees : ∀ {P : Text → Prop}, r.AliasesSatisfy P → ∀ line,
      (Scan.ofLine r .full line table).SeesOnly P :=
    fun hP line => Scan.seesOnly_of_shows hshows hformed hP
  refine ⟨_, hshows.suggest hformed text, fun word hoffered => ?_⟩
  obtain ⟨hsome, hspace⟩ := of_mem_menuAfter hoffered
  obtain ⟨before, typed, htokens, hreplaced⟩ := exists_tokenize_eq_concat hsome hspace
  obtain ⟨command, group, hselected⟩ :=
    exists_isSelectedAlias_of_mem_menuAfter htokens hoffered
  have htyped : (tokenize text)[before.length]? = some typed := by
    rw [htokens, List.getElem?_concat_length]
  have htypedNe := (isWord_of_mem_tokenize (List.mem_of_getElem? htyped)).1
  have hword : IsWord word := ⟨hselected.ne_nil htyped htypedNe,
    ((hsees haliases text).selectedAlias hselected).2⟩
  obtain ⟨htokens', hspace'⟩ := hreplaced word hword
  have hbefore : (tokenize (replaceCurrent text word)).take before.length =
      (tokenize text).take before.length := by
    simp [htokens, htokens']
  have hplaced : (tokenize (replaceCurrent text word))[before.length]? = some word := by
    simp [htokens']
  obtain ⟨hagain, hstarts⟩ := hselected.accepted hbefore hplaced
  exact ⟨_, _, hshows.suggest hformed _, hshows.autocomplete hformed .full _,
    menuAfter_of_isSelectedAlias htokens' hspace' hword.1
      (hsees (haliases.imp fun _ h => h.1) _) hagain hstarts⟩

/-- A word that the menu offers from the second bucket is found at the start afterwards. -/
theorem suggest_replaceCurrent_scattered :
    (Registry.ofGroups Unit scattered).Steady ∧ (Registry.ofGroups Unit scattered).WellFormed ∧
      (Registry.ofGroups Unit scattered).AliasesSatisfy (fun a => IsAscii a ∧ BlankFree a) ∧
      replaceCurrent "BB".toList "xabb".toList = "xabb".toList ∧
      ∃ words words' completion,
        AlwaysGives (suggest (.ofGroups Unit scattered) "BB".toList) words ∧
        "xabb".toList ∈ words ∧
        AlwaysGives (suggest (.ofGroups Unit scattered) "xabb".toList) words' ∧
        AlwaysGives (autocomplete (.ofGroups Unit scattered) .full "xabb".toList) completion ∧
        "xabb".toList ∈ words' ∧
        ∃ token, completion.tokens.getLast? = some token ∧
          SameUpToCase token.text "xabb".toList := by
  have hshows := Registry.ofGroups_shows Unit scattered
  have hformed : (Registry.ofGroups Unit scattered).WellFormed := by decide
  have haliases : (Registry.ofGroups Unit scattered).AliasesSatisfy
      fun a => IsAscii a ∧ BlankFree a :=
    Registry.ofGroups_aliasesSatisfy Unit (by decide)
  have htext : replaceCurrent "BB".toList "xabb".toList = "xabb".toList := by decide
  obtain ⟨words, hsuggest, haccept⟩ :=
    suggest_replaceCurrent hshows.steady hformed haliases "BB".toList
  have hoffered : "xabb".toList ∈ words := by
    obtain ⟨last, hrun⟩ := hshows.suggest hformed "BB".toList ()
    rw [← hsuggest.eq_of_ok hrun, menuAfter_narrowings (by decide) (by decide),
      Narrowing.mem_menu_iff]
    decide
  obtain ⟨words', completion, hagain, hcompletion, hmem, -, htoken⟩ := haccept _ hoffered
  rw [htext] at hagain hcompletion
  exact ⟨hshows.steady, hformed, haliases, htext, words, words', completion, hsuggest, hoffered,
    hagain, hcompletion, hmem, htoken⟩

end AliasConsole
