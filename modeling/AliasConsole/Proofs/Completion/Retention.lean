import AliasConsole.Proofs.Completion.Idempotence

/-!
# What completion keeps of a token

A replaced token is a beginning of the first selected alias.  The typed text occurs in
that alias, and the token keeps it exactly if the common prefix of the selected aliases
reaches to the end of the first occurrence.  It always does in the preferred bucket and
for locked tokens.  In the second bucket the typed text may stand at another place in
each alias, and then the common prefix can stop before it.
-/

namespace AliasConsole

/-- The text contains what was typed, up to case. -/
def Retains (typed text : Text) : Prop :=
  Text.lower typed <:+: Text.lower text

instance (typed text : Text) : Decidable (Retains typed text) :=
  inferInstanceAs (Decidable (Text.lower typed <:+: Text.lower text))

theorem Retains.length_le {typed text : Text} (h : Retains typed text) (htyped : IsAscii typed)
    (htext : IsAscii text) : typed.length ≤ text.length := by
  rw [← length_lower htyped, ← length_lower htext]
  exact List.IsInfix.length_le h

namespace IsCompletion

theorem locked_of_only {typed first : Text} {token : CompletedToken}
    (h : IsCompletion typed token [first]) (hreplaced : token.replaced = true) :
    token.locked = true := by
  obtain ⟨k, hgreatest, hzero, hpos⟩ := h
  have hk : k ≠ 0 := by
    intro hk
    rw [hzero hk] at hreplaced
    cases hreplaced
  have hwhole : AgreeUpTo first.length first [first] :=
    List.forall_mem_singleton.mpr ⟨Nat.le_refl _, rfl⟩
  have hle : k ≤ first.length := (hgreatest.1 first List.mem_cons_self).1
  refine (hpos hk).2.2.mpr (List.forall_mem_singleton.mpr ?_)
  exact Nat.le_antisymm (hgreatest.2 hwhole) hle

variable {typed first : Text} {rest : List Text} {token : CompletedToken}
  (h : IsCompletion typed token (first :: rest)) (hreplaced : token.replaced = true)

include h hreplaced

/-- A replaced token is a beginning of the first alias, and it is locked exactly if all
aliases have its length. -/
theorem text_eq_take : token.text = first.take token.text.length ∧
    token.text.length ≤ first.length ∧
    (token.locked = true ↔ ∀ a ∈ first :: rest, a.length = token.text.length) := by
  obtain ⟨k, hagree, htext, hlocked⟩ := h.of_replaced hreplaced
  have hle : k ≤ first.length := (hagree first (by simp)).1
  have hlength : token.text.length = k := by rw [htext, List.length_take_of_le hle]
  rw [hlength]
  exact ⟨htext, hle, hlocked⟩

variable {place : ℕ} (hplace : Text.position? (Text.lower typed) (Text.lower first) = some place)

include hplace

/-- The token keeps what was typed exactly if the common prefix reaches to the end of its
first occurrence. -/
theorem retains_iff (htyped : IsAscii typed) (hfirst : IsAscii first) :
    Retains typed token.text ↔ place + typed.length ≤ token.text.length := by
  obtain ⟨htext, hle, -⟩ := h.text_eq_take hreplaced
  rw [Retains, htext, lower_take hfirst,
    infix_take_iff hplace (by rw [length_lower hfirst]; exact hle), length_lower htyped, ← htext]

theorem retains_of_locked (hlocked : token.locked = true) : Retains typed token.text := by
  obtain ⟨htext, -, hiff⟩ := h.text_eq_take hreplaced
  have hwhole : token.text = first := by
    rw [htext, ← hiff.mp hlocked first (by simp), List.take_length]
  have hoccurs := (position?_eq_some_iff.mp hplace).1
  rw [hwhole]
  exact hoccurs.isInfix.trans (List.drop_suffix place _).isInfix

end IsCompletion

namespace Scan

variable {W : Type} {s : Scan W} {position command group : ℕ} {typed spelling : Text}

theorem IsSelectedAlias.exists_position? (h : s.IsSelectedAlias position command group spelling)
    (htyped : s.tokens[position]? = some typed) :
    ∃ place, Text.position? (Text.lower typed) (Text.lower spelling) = some place := by
  obtain ⟨-, token, aliases, htoken, -, hbest⟩ := h
  obtain rfl : typed = token := Option.some.inj (htyped.symm.trans htoken)
  have hholds := hbest.holds
  rw [rank_lower] at hholds
  exact Option.ne_none_iff_exists'.mp hholds

theorem IsSelectedAlias.starts (h : s.IsSelectedAlias position command group spelling)
    (hselected : s.IsSelected position .startsWith)
    (htyped : s.tokens[position]? = some typed) :
    Text.lower typed <+: Text.lower spelling := by
  rw [← lower_lower]
  exact rank_position_eq_zero_iff.mp (h.position_eq_zero hselected htyped)

theorem exists_selects_of_replaced (htyped : s.tokens[position]? = some typed)
    (hreplaced : (s.narrowingAt position).completed.replaced = true) :
    ∃ command group first selected,
      s.Selects position ((command, group, first) :: selected) ∧
      s.IsSelectedAlias position command group first ∧
      IsCompletion typed (s.narrowingAt position).completed
        (first :: selected.map fun x => x.2.2) := by
  have hlt := (List.getElem?_eq_some_iff.mp htyped).1
  have hselects := selects_selectedAliases hlt
  have hcompletion := isCompletion_completed htyped
  cases hselected : s.selectedAliases position with
  | nil =>
      rw [hselected, List.map_nil, IsCompletion] at hcompletion
      rw [hcompletion] at hreplaced
      cases hreplaced
  | cons x selected =>
      obtain ⟨command, group, first⟩ := x
      rw [hselected] at hselects hcompletion
      exact ⟨command, group, first, selected, hselects,
        (hselects.mem_iff command group first).mp List.mem_cons_self, hcompletion⟩

/-- In the preferred bucket every selected alias starts with the token, and so does their
common prefix, which is at least as long. -/
theorem starts_of_isCompletion {first : Text} {selected : List (ℕ × ℕ × Text)}
    {token : CompletedToken} (htyped : s.tokens[position]? = some typed) (hne : typed ≠ [])
    (htypedAscii : IsAscii typed) (hascii : s.SeesOnly IsAscii)
    (hselects : s.Selects position ((command, group, first) :: selected))
    (hcompletion : IsCompletion typed token (first :: selected.map fun x => x.2.2))
    (hstarts : s.IsSelected position .startsWith) :
    Text.lower typed <+: Text.lower token.text := by
  have hall : ∀ a ∈ first :: selected.map fun x => x.2.2,
      IsAscii a ∧ Text.lower typed <+: Text.lower a := by
    intro a ha
    have hlisted : a ∈ ((command, group, first) :: selected).map fun x => x.2.2 := ha
    obtain ⟨⟨command', group', a'⟩, hx, rfl⟩ := List.mem_map.mp hlisted
    have hselected := (hselects.mem_iff command' group' a').mp hx
    exact ⟨hascii.selectedAlias hselected, hselected.starts hstarts htyped⟩
  obtain ⟨-, -, hgrows, -⟩ := hcompletion.grows hne (List.cons_ne_nil _ _) htypedAscii
    (fun a ha => (hall a ha).1) fun a ha => (hall a ha).2
  exact hgrows

end Scan

/-- Among ASCII texts a replaced token begins with the typed one if it is completed from
the preferred bucket, and contains it if it is locked, as it is if only one alias is
selected.  Otherwise it contains the typed token exactly if the common prefix of the
selected aliases reaches to the end of the first place at which the typed token occurs in
the first of them. -/
theorem autocomplete_retains {W : Type} {r : Registry W} (options : CompletionOptions)
    {line : Text} (hline : IsAscii line) (w : W) :
    ((∃ completion last, autocomplete r options line w = .ok completion last) ↔
        ∃ table worlds, (Scan.ofLine r options line table).IsSnapshot w worlds) ∧
      ∀ table worlds, (Scan.ofLine r options line table).IsSnapshot w worlds →
        (Scan.ofLine r options line table).SeesOnly IsAscii →
        ∃ completion, autocomplete r options line w =
            .ok completion (worlds (tokenize line).length 0) ∧
          ∀ position typed token, (tokenize line)[position]? = some typed →
            completion.tokens[position]? = some token → token.replaced = true →
            ((Scan.ofLine r options line table).IsSelected position .startsWith →
              Text.lower typed <+: Text.lower token.text) ∧
            (token.locked = true → Retains typed token.text) ∧
            (Retains typed token.text → typed.length ≤ token.text.length) ∧
            ∃ command group first selected place,
              (Scan.ofLine r options line table).Selects position
                ((command, group, first) :: selected) ∧
              (selected = [] → token.locked = true) ∧
              token.text <+: first ∧
              Text.position? (Text.lower typed) (Text.lower first) = some place ∧
              (Retains typed token.text ↔ place + typed.length ≤ token.text.length) := by
  refine ⟨Scan.exists_autocomplete_iff, fun table worlds hsnapshot hascii => ?_⟩
  refine ⟨_, hsnapshot.autocomplete_eq, ?_⟩
  intro position typed token htyped htoken hreplaced
  have hlt : position < (tokenize line).length := (List.getElem?_eq_some_iff.mp htyped).1
  rw [Completion.getElem?_tokens_ofLine hlt, Option.some.injEq] at htoken
  subst htoken
  have hmem := List.mem_of_getElem? htyped
  have htypedAscii : IsAscii typed := fun c hc => hline c (subset_of_mem_words hmem hc)
  obtain ⟨command, group, first, selected, hselects, hfirst, hcompletion⟩ :=
    Scan.exists_selects_of_replaced htyped hreplaced
  obtain ⟨place, hplace⟩ := hfirst.exists_position? htyped
  have hfirstAscii : IsAscii first := hascii.selectedAlias hfirst
  obtain ⟨htext, -, -⟩ := hcompletion.text_eq_take hreplaced
  have htextAscii : IsAscii _ := htext ▸ hfirstAscii.take _
  refine ⟨Scan.starts_of_isCompletion htyped (isWord_of_mem_tokenize hmem).1 htypedAscii hascii
      hselects hcompletion,
    hcompletion.retains_of_locked hreplaced hplace,
    fun hretains => hretains.length_le htypedAscii htextAscii, command, group, first, selected,
    place, hselects, ?_, htext ▸ List.take_prefix _ first, hplace,
    hcompletion.retains_iff hreplaced hplace htypedAscii hfirstAscii⟩
  rintro rfl
  exact hcompletion.locked_of_only hreplaced

/-- Two commands that hold the same letters at different places. -/
def scattered : List (List (List AliasGroup) × ℕ) :=
  [([[["xabb".toList]]], 1), ([[["xbb".toList]]], 1)]

theorem autocomplete_retains_scattered :
    (Registry.ofGroups Unit scattered).AliasesSatisfy IsAscii ∧ IsAscii "XB".toList ∧
      ∃ completion w', autocomplete (.ofGroups Unit scattered) .full "XB".toList () =
          .ok completion w' ∧
        ∃ token, completion.tokens[0]? = some token ∧ token.replaced = true ∧
          Text.lower "XB".toList <+: Text.lower token.text := by
  have hformed : (Registry.ofGroups Unit scattered).WellFormed := by decide
  have hascii : (Registry.ofGroups Unit scattered).AliasesSatisfy IsAscii :=
    Registry.ofGroups_aliasesSatisfy Unit (by decide)
  have hline : IsAscii "XB".toList := by decide
  obtain ⟨worlds, hsnapshot⟩ := (Registry.ofGroups_shows Unit scattered).exists_isSnapshot
    hformed false (tokenize "XB".toList) ()
  obtain ⟨completion, hok, hretains⟩ :=
    (autocomplete_retains (r := .ofGroups Unit scattered) .full hline ()).2
      (Registry.tableOf scattered) worlds hsnapshot (hsnapshot.seesOnly hformed hascii)
  have hcompletion := (EStateM.Result.ok.inj
    (hok.symm.trans (Scan.IsSnapshot.autocomplete_eq hsnapshot))).1
  have hfound : ∃ m ∈ ((Scan.ofLine (.ofGroups Unit scattered) .full "XB".toList
      (Registry.tableOf scattered)).narrowingAt 0).found, m.bucket = .startsWith := by
    decide
  obtain ⟨m, hm, hbucket⟩ := hfound
  have hstarts : (Scan.ofLine (.ofGroups Unit scattered) .full "XB".toList
      (Registry.tableOf scattered)).IsSelected 0 .startsWith :=
    ⟨m.command, m.group, (Scan.isMatch_iff (by decide)).mpr ⟨m, hm, rfl, rfl, hbucket⟩⟩
  have htoken : completion.tokens[0]? = some ⟨"xbb".toList, true, true⟩ := by
    rw [hcompletion]
    decide
  exact ⟨hascii, hline, completion, _, hok, _, htoken, rfl,
    (hretains 0 "XB".toList _ rfl htoken rfl).1 hstarts⟩

/-- Letters that stand at different places in the selected aliases are lost, and the
token becomes shorter. -/
theorem exists_replaced_not_retains :
    (Registry.ofGroups Unit scattered).WellFormed ∧
      (Registry.ofGroups Unit scattered).AliasesSatisfy (fun a => IsAscii a ∧ BlankFree a) ∧
      IsAscii "bb".toList ∧ tokenize "bb".toList = ["bb".toList] ∧
      ∃ completion w', autocomplete (.ofGroups Unit scattered) .full "bb".toList () =
          .ok completion w' ∧
        ∃ token, completion.tokens = [token] ∧ token.replaced = true ∧
          ¬Retains "bb".toList token.text ∧ token.text.length < "bb".toList.length := by
  have hformed : (Registry.ofGroups Unit scattered).WellFormed := by decide
  obtain ⟨worlds, hsnapshot⟩ := (Registry.ofGroups_shows Unit scattered).exists_isSnapshot
    hformed false (tokenize "bb".toList) ()
  refine ⟨hformed, Registry.ofGroups_aliasesSatisfy Unit (by decide), by decide, rfl, _, _,
    Scan.IsSnapshot.autocomplete_eq hsnapshot, ⟨"x".toList, false, true⟩, ?_⟩
  decide

end AliasConsole
