import AliasConsole.Proofs.Completion.Ordering
import AliasConsole.Proofs.Completion.Retention

/-!
# The menu

The menu offers the best aliases of the bucket that is selected for the last token, each
once, in the order in which they first appear by rank.  Completing the token goes by the
same aliases, but takes them in the order of commands and groups.  So the two agree: a
completed token is a beginning of every word of the menu up to case, it is locked if no
word is longer, and a token that stays as it was typed has words that begin with different
characters.  After a blank there is no menu, although completion still goes by the last
token.
-/

namespace AliasConsole

/-! ## Distinct words -/

/-- The words are the texts of a list, each once, in the order of their first places. -/
structure IsDistinctOf (items words : List Text) : Prop where
  mem_iff : ∀ t, t ∈ words ↔ t ∈ items
  ordered : words.Pairwise fun t u => items.idxOf t < items.idxOf u

namespace IsDistinctOf

variable {items words : List Text}

theorem nodup (h : IsDistinctOf items words) : words.Nodup := by
  refine h.ordered.imp fun {t u} hlt heq => ?_
  rw [heq] at hlt
  exact lt_irrefl _ hlt

theorem eq_nil_iff (h : IsDistinctOf items words) : words = [] ↔ items = [] := by
  simp only [List.eq_nil_iff_forall_not_mem, h.mem_iff]

theorem pairwise {R : Text → Text → Prop} (h : IsDistinctOf items words)
    (hitems : items.Pairwise R) : words.Pairwise R := by
  refine h.ordered.imp_of_mem fun {t u} ht hu hlt => ?_
  have hplaces := List.pairwise_iff_getElem.mp hitems _ _
    (List.idxOf_lt_length_of_mem ((h.mem_iff t).mp ht))
    (List.idxOf_lt_length_of_mem ((h.mem_iff u).mp hu)) hlt
  rwa [List.getElem_idxOf, List.getElem_idxOf] at hplaces

theorem snoc (h : IsDistinctOf items words) (t : Text) :
    IsDistinctOf (items ++ [t]) (if words.contains t then words else words ++ [t]) := by
  have hplace : ∀ u ∈ words, (items ++ [t]).idxOf u = items.idxOf u := fun u hu =>
    List.idxOf_append_of_mem ((h.mem_iff u).mp hu)
  have hkept : words.Pairwise fun u v => (items ++ [t]).idxOf u < (items ++ [t]).idxOf v :=
    h.ordered.imp_of_mem fun hu hv hlt => by rwa [hplace _ hu, hplace _ hv]
  split_ifs with hseen
  · rw [List.contains_iff_mem] at hseen
    refine ⟨fun u => ?_, hkept⟩
    rw [List.mem_append, List.mem_singleton, ← h.mem_iff]
    exact ⟨Or.inl, fun hu => hu.elim id fun heq => heq ▸ hseen⟩
  · rw [List.contains_iff_mem] at hseen
    refine ⟨fun u => ?_, List.pairwise_append.mpr ⟨hkept, List.pairwise_singleton _ _, ?_⟩⟩
    · rw [List.mem_append, List.mem_append, h.mem_iff]
    · intro u hu v hv
      obtain rfl := List.mem_singleton.mp hv
      have hnew : v ∉ items := fun hv => hseen ((h.mem_iff v).mpr hv)
      rw [hplace u hu, List.idxOf_append_of_notMem hnew]
      exact Nat.lt_of_lt_of_le (List.idxOf_lt_length_of_mem ((h.mem_iff u).mp hu))
        (Nat.le_add_right _ _)

theorem distinctFrom (h : IsDistinctOf items words) (more : List Text) :
    IsDistinctOf (items ++ more) (distinctFrom words more) := by
  induction more generalizing items words with
  | nil => rwa [List.append_nil]
  | cons t rest ih =>
      have hrest := ih (h.snoc t)
      rw [List.append_assoc, List.singleton_append] at hrest
      exact hrest

end IsDistinctOf

theorem isDistinctOf_distinct (items : List Text) : IsDistinctOf items (distinct items) :=
  (⟨fun _ => Iff.rfl, List.Pairwise.nil⟩ : IsDistinctOf [] []).distinctFrom items

/-! ## The words of a position -/

theorem mergeSort_eq_nil_iff {α : Type} {le : α → α → Bool} {items : List α} :
    items.mergeSort le = [] ↔ items = [] := by
  rw [← List.length_eq_zero_iff, List.length_mergeSort, List.length_eq_zero_iff]

namespace Narrowing

variable {n : Narrowing} {position : ℕ}

/-- The matches of the selected bucket by rank. -/
def rankedSelected (n : Narrowing) : List Match := n.selected.mergeSort fun a b => !b.better a

/-- The best aliases of the selected bucket by rank, each once. -/
def menu (n : Narrowing) : List Text := distinct (n.rankedSelected.map Match.best)

theorem isDistinctOf_menu (n : Narrowing) :
    IsDistinctOf (n.rankedSelected.map Match.best) n.menu :=
  isDistinctOf_distinct _

theorem mem_menu_iff {t : Text} : t ∈ n.menu ↔ t ∈ n.selected.map Match.best := by
  rw [n.isDistinctOf_menu.mem_iff, List.mem_map, List.mem_map]
  simp only [rankedSelected, List.mem_mergeSort]

theorem filter_bucket_suggestions (n : Narrowing) (position : ℕ) :
    (n.suggestions position).filter (·.bucket == .startsWith) =
      (n.ranked .startsWith).map (Suggestion.mk position .startsWith) := by
  simp [suggestions, List.filter_map, Function.comp_def]

/-- The menu of a position shows the matches of the selected bucket by rank. -/
theorem menuWords_suggestions (n : Narrowing) (position : ℕ) :
    menuWords (n.suggestions position) = n.menu := by
  rw [menuWords, filter_bucket_suggestions, menu]
  by_cases hstarts : n.inBucket .startsWith = []
  · have hranked : n.ranked .startsWith = [] := by rw [ranked, hstarts, List.mergeSort_nil]
    have hselected : n.rankedSelected = n.ranked .contains := by
      rw [rankedSelected, selected, hstarts, ranked]
    have hall : n.suggestions position =
        (n.ranked .contains).map (Suggestion.mk position .contains) := by
      simp [suggestions, hranked]
    rw [hranked, hselected, hall, List.map_nil, List.isEmpty_nil, if_pos rfl, List.map_map]
    rfl
  · have hselected : n.rankedSelected = n.ranked .startsWith := by
      rw [rankedSelected, selected_of_ne_nil hstarts, ranked]
    have hranked : (n.ranked .startsWith).map (Suggestion.mk position .startsWith) ≠ [] := by
      rwa [ne_eq, List.map_eq_nil_iff, ranked, mergeSort_eq_nil_iff]
    rw [hselected, List.isEmpty_eq_false_iff.mpr hranked, if_neg Bool.false_ne_true,
      List.map_map]
    rfl

/-- One of the buckets is selected if anything is found. -/
theorem selected_eq_nil_iff : n.selected = [] ↔ n.found = [] := by
  refine ⟨fun hnil => ?_, fun hnil => ?_⟩
  · have hstarts : n.inBucket .startsWith = [] := by
      by_contra hne
      exact hne (selected_of_ne_nil hne ▸ hnil)
    rw [selected, hstarts] at hnil
    refine List.eq_nil_iff_forall_not_mem.mpr fun m hm => ?_
    cases hbucket : m.bucket with
    | startsWith =>
        exact List.eq_nil_iff_forall_not_mem.mp hstarts m (mem_inBucket_iff.mpr ⟨hm, hbucket⟩)
    | contains =>
        exact List.eq_nil_iff_forall_not_mem.mp hnil m (mem_inBucket_iff.mpr ⟨hm, hbucket⟩)
  · exact List.sublist_nil.mp (hnil ▸ n.selected_sublist)

theorem menu_eq_nil_iff : n.menu = [] ↔ n.found = [] := by
  rw [n.isDistinctOf_menu.eq_nil_iff, List.map_eq_nil_iff, rankedSelected, mergeSort_eq_nil_iff,
    selected_eq_nil_iff]

end Narrowing

/-! ## The words of a text -/

theorem filter_position_suggestionsFrom {narrowings : List Narrowing} {i : ℕ} {n : Narrowing}
    (hn : narrowings[i]? = some n) (position : ℕ) :
    (suggestionsFrom position narrowings).filter (·.position == position + i) =
      n.suggestions (position + i) := by
  induction narrowings generalizing i position with
  | nil => cases hn
  | cons m rest ih =>
      rw [suggestionsFrom, List.filter_append]
      cases i with
      | zero =>
          obtain rfl := Option.some.inj hn
          have hhere : ∀ x ∈ m.suggestions position, x.position = position := fun x hx =>
            (Narrowing.mem_suggestions_iff.mp hx).1
          have hlater : ∀ x ∈ suggestionsFrom (position + 1) rest, x.position ≠ position := by
            intro x hx
            obtain ⟨j, -, -, hposition, -⟩ := mem_suggestionsFrom_iff.mp hx
            omega
          rw [Nat.add_zero, List.filter_eq_self.mpr (by simpa using hhere),
            List.filter_eq_nil_iff.mpr (by simpa using hlater), List.append_nil]
      | succ i =>
          have hhere : ∀ x ∈ m.suggestions position, x.position ≠ position + (i + 1) := by
            intro x hx
            rw [(Narrowing.mem_suggestions_iff.mp hx).1]
            omega
          have hrest := ih hn (position + 1)
          rw [Nat.succ_add_eq_add_succ] at hrest
          rw [List.filter_eq_nil_iff.mpr (by simpa using hhere), List.nil_append, hrest]

/-- The words of the menu under a text: those of the last narrowing, but none after a
blank. -/
def menuAfter (text : Text) (narrowings : List Narrowing) : List Text :=
  if endsWithSpace text then [] else (narrowings.getLast?.map Narrowing.menu).getD []

section Answers

variable {W : Type} {r : Registry W} {text : Text} {narrowings : List Narrowing}

theorem length_of_narrowFrom {limited : Bool} {position : ℕ} {alive : List (Entry W)}
    {tokens : List Text} {w last : W}
    (h : narrowFrom limited position alive tokens w = .ok narrowings last) :
    narrowings.length = tokens.length := by
  induction tokens generalizing position alive w last narrowings with
  | nil =>
      obtain ⟨rfl, -⟩ := EStateM.Result.ok.inj h
      rfl
  | cons token rest ih =>
      rw [narrowFrom] at h
      obtain ⟨evaluated, w₁, -, h⟩ := exists_ok_of_bind_ok h
      obtain ⟨later, w₂, hlater, h⟩ := exists_ok_of_bind_ok h
      obtain ⟨rfl, -⟩ := EStateM.Result.ok.inj h
      rw [List.length_cons, List.length_cons, ih hlater]

theorem AlwaysGives.autocomplete {options : CompletionOptions}
    (h : AlwaysGives (narrow r options.limitToFixed (tokenize text)) narrowings) :
    AlwaysGives (AliasConsole.autocomplete r options text)
      (.ofNarrowings options text narrowings) :=
  h.bind (.pure _)

theorem AlwaysGives.suggest (h : AlwaysGives (narrow r false (tokenize text)) narrowings) :
    AlwaysGives (AliasConsole.suggest r text) (menuAfter text narrowings) := by
  intro w
  obtain ⟨last, hnarrow⟩ := h w
  have hlength := length_of_narrowFrom hnarrow
  rw [AliasConsole.suggest, menuAfter]
  cases hspace : endsWithSpace text with
  | true =>
      rw [Bool.or_true, if_pos rfl, if_pos rfl]
      exact ⟨w, rfl⟩
  | false =>
      rw [Bool.or_false, if_neg Bool.false_ne_true, List.getLast?_eq_getElem?, hlength]
      by_cases hnil : tokenize text = []
      · rw [hnil, List.length_nil] at hlength
        rw [hnil, List.eq_nil_of_length_eq_zero hlength]
        exact ⟨w, rfl⟩
      · have hpositive := List.length_pos_iff.mpr hnil
        have hlast := List.getElem?_eq_getElem
          (lt_of_lt_of_eq (Nat.sub_one_lt_of_lt hpositive) hlength.symm)
        have hwords := filter_position_suggestionsFrom hlast 0
        rw [Nat.zero_add] at hwords
        rw [List.isEmpty_eq_false_iff.mpr hnil, if_neg Bool.false_ne_true, hlast, Option.map_some,
          Option.getD_some, ← Narrowing.menuWords_suggestions, ← hwords]
        have hcompletion : AlwaysGives (AliasConsole.autocomplete r ⟨false, true, false⟩ text)
            (.ofNarrowings ⟨false, true, false⟩ text narrowings) := h.autocomplete
        obtain ⟨w', hw'⟩ := hcompletion w
        exact ⟨w', bind_of_ok hw'⟩

end Answers

/-! ## The words and the completed token -/

/-- A token that is replaced is a beginning of all words up to case, and it is locked
exactly if no word is longer; a token that stays as it was typed has words that begin with
different characters. -/
structure CompletedToken.GoesWith (token : CompletedToken) (words : List Text) : Prop where
  starts : token.replaced = true →
    ∀ word ∈ words, token.text.map foldChar <+: word.map foldChar
  locked_iff : token.replaced = true →
    (token.locked = true ↔ ∀ word ∈ words, word.length = token.text.length)
  apart : token.replaced = false → ∃ word ∈ words, ∃ other ∈ words, ∃ c d,
    word.head? = some c ∧ other.head? = some d ∧ foldChar c ≠ foldChar d

theorem CompletedToken.GoesWith.congr {token : CompletedToken} {words others : List Text}
    (h : token.GoesWith words) (hmem : ∀ t, t ∈ others ↔ t ∈ words) :
    token.GoesWith others := by
  refine ⟨fun hreplaced word hword => h.starts hreplaced word ((hmem word).mp hword),
    fun hreplaced => ?_, fun hreplaced => ?_⟩
  · rw [h.locked_iff hreplaced]
    exact forall_congr' fun word => imp_congr_left (hmem word).symm
  · obtain ⟨word, hword, other, hother, hapart⟩ := h.apart hreplaced
    exact ⟨word, (hmem word).mpr hword, other, (hmem other).mpr hother, hapart⟩

/-- The completed token goes with the aliases that it is completed from. -/
theorem IsCompletion.goesWith {typed : Text} {token : CompletedToken} {aliases : List Text}
    (h : IsCompletion typed token aliases) (hsome : aliases ≠ [])
    (hne : ∀ a ∈ aliases, a ≠ []) : token.GoesWith aliases := by
  cases aliases with
  | nil => exact absurd rfl hsome
  | cons first rest =>
      refine ⟨fun hreplaced word hword => ?_, fun hreplaced => (h.text_eq_take hreplaced).2.2,
        fun hstays => ?_⟩
      · obtain ⟨k, hagree, htext, -⟩ := h.of_replaced hreplaced
        have hsame : (first.take k).map foldChar = (word.take k).map foldChar :=
          (hagree word hword).2
        rw [htext, hsame, List.map_take]
        exact List.take_prefix k _
      · have hdiffers := h.not_agreeUpTo_one hstays
        by_contra hnone
        refine hdiffers fun a ha => ?_
        obtain ⟨c, front, hfirst⟩ := List.exists_cons_of_ne_nil (hne first List.mem_cons_self)
        obtain ⟨d, back, rfl⟩ := List.exists_cons_of_ne_nil (hne a ha)
        have hcd : foldChar c = foldChar d := by
          by_contra hcd
          exact hnone ⟨first, List.mem_cons_self, _, ha, c, d, by rw [hfirst]; rfl, rfl, hcd⟩
        rw [hfirst]
        exact ⟨Nat.succ_pos _, congrArg (fun t => [t]) hcd⟩

namespace Scan

variable {W : Type}

/-- The list has the command, the group and the best alias of every match in the selected
bucket, by the rank of the alias for the token, and what has the same rank in the order of
commands and then of groups. -/
structure Ranks (s : Scan W) (position : ℕ) (token : Text) (selected : List (ℕ × ℕ × Text)) :
    Prop where
  ordered : selected.Pairwise fun x y =>
    toLex ((rank token x.2.2).key, toLex (x.1, x.2.1)) <
      toLex ((rank token y.2.2).key, toLex (y.1, y.2.1))
  mem_iff : ∀ command group spelling, (command, group, spelling) ∈ selected ↔
    s.IsSelectedAlias position command group spelling

variable {s : Scan W} {position command group : ℕ} {token spelling : Text}

theorem ranks_rankedSelected (htoken : s.tokens[position]? = some token) :
    s.Ranks position token ((s.narrowingAt position).rankedSelected.map fun m =>
      (m.command, m.group, m.best)) := by
  have hlt := (List.getElem?_eq_some_iff.mp htoken).1
  constructor
  · have hrank : ∀ m ∈ (s.narrowingAt position).rankedSelected,
        (rank token m.best).key = m.rank.key := by
      intro m hm
      have hfound := (Narrowing.selected_sublist _).subset (List.mem_mergeSort.mp hm)
      obtain ⟨aliases, -, hstands⟩ := standsFor_of_mem_found htoken hfound
      rw [← hstands.rank_eq, rank_lower]
    rw [List.pairwise_map]
    refine (Match.pairwise_mergeSort ((s.pairwise_found_narrowingAt position).sublist
      (Narrowing.selected_sublist _))).imp_of_mem fun {m n} hm hn hmn => ?_
    rw [Prod.Lex.toLex_lt_toLex, hrank m hm, hrank n hn]
    exact (lt_or_eq_of_le hmn.1).imp id fun heq => ⟨heq, hmn.2 heq⟩
  · intro command group spelling
    rw [← (selects_selectedAliases hlt).mem_iff, selectedAliases, List.mem_map, List.mem_map]
    simp only [Narrowing.rankedSelected, List.mem_mergeSort]

/-- The words of a menu stand in the order of their ranks. -/
theorem pairwise_key_menu (htoken : s.tokens[position]? = some token) :
    (s.narrowingAt position).menu.Pairwise fun t u =>
      (rank token t).key ≤ (rank token u).key := by
  have hordered := (ranks_rankedSelected htoken).ordered
  rw [List.pairwise_map] at hordered
  refine (Narrowing.isDistinctOf_menu _).pairwise (List.pairwise_map.mpr ?_)
  exact hordered.imp fun {m n} hmn => (Prod.Lex.toLex_lt_toLex.mp hmn).elim le_of_lt
    fun heq => heq.1.le

theorem IsSelectedAlias.ne_nil (h : s.IsSelectedAlias position command group spelling)
    (htoken : s.tokens[position]? = some token) (hne : token ≠ []) : spelling ≠ [] := by
  obtain ⟨place, hplace⟩ := h.exists_position? htoken
  have hlength := position_add_length_le hplace
  have hlower := length_le_length_lower token
  have hpositive := List.length_pos_iff.mpr hne
  rintro rfl
  rw [show Text.lower [] = [] from rfl, List.length_nil] at hlength
  omega

theorem mem_menu_iff (hlt : position < s.tokens.length) {word : Text} :
    word ∈ (s.narrowingAt position).menu ↔
      ∃ command group, s.IsSelectedAlias position command group word := by
  rw [Narrowing.mem_menu_iff, ← map_selectedAliases, mem_selectedAliases_iff hlt]

theorem goesWith_menu (htoken : s.tokens[position]? = some token) (hne : token ≠ [])
    (hwords : (s.narrowingAt position).menu ≠ []) :
    (s.narrowingAt position).completed.GoesWith (s.narrowingAt position).menu := by
  have hlt := (List.getElem?_eq_some_iff.mp htoken).1
  have hmem : ∀ t, t ∈ (s.narrowingAt position).menu ↔
      t ∈ (s.selectedAliases position).map fun x => x.2.2 := fun t => by
    rw [mem_menu_iff hlt, mem_selectedAliases_iff hlt]
  refine ((isCompletion_completed htoken).goesWith ?_ fun a ha => ?_).congr hmem
  · obtain ⟨word, hword⟩ := List.exists_mem_of_ne_nil _ hwords
    exact List.ne_nil_of_mem ((hmem word).mp hword)
  · obtain ⟨command, group, hselected⟩ := (mem_selectedAliases_iff hlt).mp ha
    exact hselected.ne_nil htoken hne

theorem menu_ne_nil_iff (hlt : position < s.tokens.length) :
    (s.narrowingAt position).menu ≠ [] ↔
      ∃ command group bucket, s.IsMatch position command group bucket := by
  rw [ne_eq, Narrowing.menu_eq_nil_iff]
  simp only [isMatch_iff hlt]
  constructor
  · intro hne
    obtain ⟨m, hm⟩ := List.exists_mem_of_ne_nil _ hne
    exact ⟨m.command, m.group, m.bucket, m, hm, rfl, rfl, rfl⟩
  · rintro ⟨command, group, bucket, m, hm, -⟩
    exact List.ne_nil_of_mem hm

theorem getLast?_narrowings (hne : s.tokens ≠ []) :
    s.narrowings.getLast? = some (s.narrowingAt (s.tokens.length - 1)) := by
  have hlength : s.narrowings.length = s.tokens.length := by simp [narrowings]
  rw [List.getLast?_eq_getElem?, hlength, getElem?_narrowings]
  exact ⟨Nat.sub_one_lt_of_lt (List.length_pos_iff.mpr hne), rfl⟩

end Scan

section Words

variable {W : Type} {r : Registry W} {options : CompletionOptions} {text : Text}
  {table : GroupTable}

theorem Registry.Shows.autocomplete (hshows : r.Shows table) (hformed : r.WellFormed)
    (options : CompletionOptions) (text : Text) :
    AlwaysGives (AliasConsole.autocomplete r options text)
      (.ofNarrowings options text (Scan.ofLine r options text table).narrowings) :=
  (hshows.alwaysGives_narrow hformed options.limitToFixed (tokenize text)).autocomplete

theorem Registry.Shows.suggest (hshows : r.Shows table) (hformed : r.WellFormed) (text : Text) :
    AlwaysGives (AliasConsole.suggest r text)
      (menuAfter text (Scan.ofLine r .full text table).narrowings) :=
  (hshows.alwaysGives_narrow hformed false (tokenize text)).suggest

theorem menuAfter_of_blank {narrowings : List Narrowing} (h : endsWithSpace text = true) :
    menuAfter text narrowings = [] :=
  if_pos h

theorem menuAfter_of_no_token (h : tokenize text = []) :
    menuAfter text (Scan.ofLine r options text table).narrowings = [] := by
  rw [menuAfter, Scan.ofLine, Scan.narrowings, h]
  exact ite_self []

theorem of_mem_menuAfter {word : Text}
    (h : word ∈ menuAfter text (Scan.ofLine r options text table).narrowings) :
    tokenize text ≠ [] ∧ endsWithSpace text = false := by
  refine ⟨fun hnil => ?_, eq_false_of_ne_true fun hspace => ?_⟩
  · rw [menuAfter_of_no_token hnil] at h
    exact List.not_mem_nil h
  · rw [menuAfter_of_blank hspace] at h
    exact List.not_mem_nil h

/-- The menu under a text that does not end in a blank is that of its last token. -/
theorem menuAfter_narrowings (hne : tokenize text ≠ []) (hspace : endsWithSpace text = false) :
    menuAfter text (Scan.ofLine r options text table).narrowings =
      ((Scan.ofLine r options text table).narrowingAt ((tokenize text).length - 1)).menu := by
  have hlast : (Scan.ofLine r options text table).narrowings.getLast? = _ :=
    Scan.getLast?_narrowings hne
  rw [menuAfter, hspace, if_neg Bool.false_ne_true, hlast, Option.map_some, Option.getD_some]

theorem Completion.getLast?_tokens_ofLine (hne : tokenize text ≠ []) :
    (ofNarrowings options text
        (Scan.ofLine r options text table).narrowings).tokens.getLast? =
      some ((Scan.ofLine r options text table).narrowingAt
        ((tokenize text).length - 1)).completed := by
  have hlast : (Scan.ofLine r options text table).narrowings.getLast? = _ :=
    Scan.getLast?_narrowings hne
  rw [ofNarrowings, List.getLast?_map, hlast, Option.map_some]

end Words

/-- The menu offers the best aliases of the bucket that is selected for the last token,
each once and in the order of their first places by rank, unless there is no token, the
text ends in a blank or nothing matches.  The completion of the same text goes with what
the menu offers. -/
theorem suggest_goesWith {W : Type} {r : Registry W} {table : GroupTable}
    (hshows : r.Shows table) (hformed : r.WellFormed) (text : Text) :
    ∃ words completion, AlwaysGives (suggest r text) words ∧
      AlwaysGives (autocomplete r .full text) completion ∧
      words.Nodup ∧
      (words = [] ↔ tokenize text = [] ∨ endsWithSpace text = true ∨
        ¬∃ command group bucket, (Scan.ofLine r .full text table).IsMatch
          ((tokenize text).length - 1) command group bucket) ∧
      (words ≠ [] → ∃ typed selected token,
        (tokenize text).getLast? = some typed ∧
        (Scan.ofLine r .full text table).Ranks ((tokenize text).length - 1) typed selected ∧
        IsDistinctOf (selected.map fun x => x.2.2) words ∧
        completion.tokens.getLast? = some token ∧ token.GoesWith words) := by
  refine ⟨_, _, hshows.suggest hformed text, hshows.autocomplete hformed .full text, ?_⟩
  by_cases hnil : tokenize text = []
  · rw [menuAfter_of_no_token hnil]
    exact ⟨List.nodup_nil, iff_of_true rfl (Or.inl hnil), absurd rfl⟩
  by_cases hspace : endsWithSpace text = true
  · rw [menuAfter_of_blank hspace]
    exact ⟨List.nodup_nil, iff_of_true rfl (Or.inr (Or.inl hspace)), absurd rfl⟩
  have hlt : (tokenize text).length - 1 < (tokenize text).length :=
    Nat.sub_one_lt_of_lt (List.length_pos_iff.mpr hnil)
  have htoken := List.getElem?_eq_getElem hlt
  have hword := isWord_of_mem_tokenize (List.mem_of_getElem? htoken)
  rw [menuAfter_narrowings hnil (eq_false_of_ne_true hspace)]
  refine ⟨(Narrowing.isDistinctOf_menu _).nodup, ?_, fun hwords => ?_⟩
  · rw [(Scan.menu_ne_nil_iff hlt).not_right]
    exact ⟨fun hnone => Or.inr (Or.inr hnone),
      fun h => (h.resolve_left hnil).resolve_left hspace⟩
  · refine ⟨_, _, _, List.getLast?_eq_getElem?.trans htoken, Scan.ranks_rankedSelected htoken, ?_,
      Completion.getLast?_tokens_ofLine hnil, Scan.goesWith_menu htoken hword.1 hwords⟩
    rw [List.map_map]
    exact Narrowing.isDistinctOf_menu _

theorem suggest_goesWith_travels :
    (Registry.ofGroups Unit travels).Shows (Registry.tableOf travels) ∧
      (Registry.ofGroups Unit travels).WellFormed ∧
      ∃ words completion, AlwaysGives (suggest (.ofGroups Unit travels) "te".toList) words ∧
        AlwaysGives (autocomplete (.ofGroups Unit travels) .full "te".toList) completion ∧
        words ≠ [] ∧ words.Nodup ∧
        completion.tokens.getLast? = some ⟨"Tel".toList, false, true⟩ ∧
        CompletedToken.GoesWith ⟨"Tel".toList, false, true⟩ words := by
  have hshows := Registry.ofGroups_shows Unit travels
  have hformed : (Registry.ofGroups Unit travels).WellFormed := by decide
  obtain ⟨words, completion, hsuggest, hcompletion, hnodup, hempty, hagree⟩ :=
    suggest_goesWith hshows hformed "te".toList
  have hfound : ((Scan.ofLine (.ofGroups Unit travels) .full "te".toList
      (Registry.tableOf travels)).narrowingAt 0).found ≠ [] := by decide
  have hmatch := (Scan.menu_ne_nil_iff (by decide)).mp fun hnil =>
    hfound (Narrowing.menu_eq_nil_iff.mp hnil)
  have hwords : words ≠ [] := fun hnil =>
    ((hempty.mp hnil).resolve_left (by decide)).elim (by decide) fun hnone => hnone hmatch
  have hlast : completion.tokens.getLast? = some ⟨"Tel".toList, false, true⟩ := by
    have hrun : autocomplete (.ofGroups Unit travels) .full "te".toList () = .ok _ _ := rfl
    rw [← hcompletion.eq_of_ok hrun]
    decide
  obtain ⟨_, _, token, -, -, -, htoken, hgoes⟩ := hagree hwords
  obtain rfl := Option.some.inj (hlast.symm.trans htoken)
  exact ⟨hshows, hformed, words, completion, hsuggest, hcompletion, hwords, hnodup, hlast, hgoes⟩

/-- After a blank there are no words, and the completed token need not be locked. -/
theorem exists_replaced_not_locked_of_no_words :
    (Registry.ofGroups Unit travels).Steady ∧ (Registry.ofGroups Unit travels).WellFormed ∧
      ∃ words completion, AlwaysGives (suggest (.ofGroups Unit travels) "te ".toList) words ∧
        AlwaysGives (autocomplete (.ofGroups Unit travels) .full "te ".toList) completion ∧
        ∃ token, completion.tokens.getLast? = some token ∧ token.replaced = true ∧
          ¬(token.locked = true ↔ ∀ word ∈ words, word.length = token.text.length) := by
  have hshows := Registry.ofGroups_shows Unit travels
  have hformed : (Registry.ofGroups Unit travels).WellFormed := by decide
  refine ⟨hshows.steady, hformed, [], _, fun w => ⟨w, rfl⟩,
    hshows.autocomplete hformed .full "te ".toList, ⟨"Tel".toList, false, true⟩, ?_⟩
  decide

end AliasConsole
