import AliasConsole.Proofs.Completion.Listing

/-!
# What a position depends on

Completing goes through the tokens from left to right and never looks ahead, so narrowing
the first tokens of a line is the beginning of narrowing all of them, in the same world.
With candidates that are the same at every evaluation the world does not matter either.
Then two lines that begin with the same tokens are completed alike there, whatever blanks
stand between these tokens, whatever comes after them, and whatever the flags ask to
answer.
-/

namespace AliasConsole

variable {W : Type}

/-! ## The first tokens -/

theorem narrowFrom_take {limited : Bool} {position : ℕ} {alive : List (Entry W)}
    {tokens : List Text} {w last : W} {narrowings : List Narrowing}
    (h : narrowFrom limited position alive tokens w = .ok narrowings last) (k : ℕ) :
    ∃ between, narrowFrom limited position alive (tokens.take k) w =
      .ok (narrowings.take k) between := by
  induction tokens generalizing position alive w last narrowings k with
  | nil =>
      obtain ⟨rfl, -⟩ := EStateM.Result.ok.inj h
      rw [List.take_nil, List.take_nil]
      exact ⟨w, rfl⟩
  | cons token rest ih =>
      cases k with
      | zero => exact ⟨w, rfl⟩
      | succ k =>
          rw [narrowFrom] at h
          obtain ⟨evaluated, w₁, hevaluated, h⟩ := exists_ok_of_bind_ok h
          obtain ⟨later, w₂, hlater, h⟩ := exists_ok_of_bind_ok h
          obtain ⟨rfl, -⟩ := EStateM.Result.ok.inj h
          obtain ⟨between, hbetween⟩ := ih hlater k
          refine ⟨between, ?_⟩
          rw [List.take_succ_cons, narrowFrom, bind_of_ok hevaluated, bind_of_ok hbetween]
          rfl

theorem filter_suggestionsFrom (position k : ℕ) (narrowings : List Narrowing) :
    (suggestionsFrom position narrowings).filter (·.position < position + k) =
      suggestionsFrom position (narrowings.take k) := by
  induction narrowings generalizing position k with
  | nil => rw [List.take_nil]; rfl
  | cons n rest ih =>
      cases k with
      | zero =>
          refine List.filter_eq_nil_iff.mpr fun x hx => ?_
          obtain ⟨i, -, -, hposition, -⟩ := mem_suggestionsFrom_iff.mp hx
          simp [hposition]
      | succ k =>
          have hhere : ∀ x ∈ n.suggestions position, x.position < position + (k + 1) := by
            intro x hx
            rw [(Narrowing.mem_suggestions_iff.mp hx).1]
            omega
          rw [suggestionsFrom, List.filter_append, List.take_succ_cons, suggestionsFrom,
            List.filter_eq_self.mpr (by simpa using hhere), ← Nat.succ_add_eq_add_succ, ih]

/-! ## Two lines -/

/-- What narrowing gives for steady candidates depends on the tokens alone. -/
theorem Registry.Steady.exists_alwaysGives_narrow {r : Registry W} (hsteady : r.Steady)
    (hformed : r.WellFormed) (limited : Bool) (tokens : List Text) :
    ∃ narrowings, AlwaysGives (narrow r limited tokens) narrowings := by
  obtain ⟨table, hshows⟩ := hsteady.exists_shows
  exact ⟨_, hshows.alwaysGives_narrow hformed limited tokens⟩

/-- Lines that begin with the same tokens have the same first narrowings. -/
theorem Registry.Steady.take_narrow_eq {r : Registry W} (hsteady : r.Steady)
    (hformed : r.WellFormed) {limited : Bool} {tokens tokens' : List Text} {k : ℕ}
    (htokens : tokens'.take k = tokens.take k) {narrowings narrowings' : List Narrowing}
    {w w' last last' : W} (h : narrow r limited tokens w = .ok narrowings last)
    (h' : narrow r limited tokens' w' = .ok narrowings' last') :
    narrowings'.take k = narrowings.take k := by
  obtain ⟨first, hfirst⟩ := hsteady.exists_alwaysGives_narrow hformed limited (tokens.take k)
  obtain ⟨between, hbetween⟩ := narrowFrom_take h k
  obtain ⟨between', hbetween'⟩ := narrowFrom_take h' k
  rw [htokens] at hbetween'
  rw [hfirst.eq_of_ok hbetween, hfirst.eq_of_ok hbetween']

theorem Completion.take_tokens_ofNarrowings (options : CompletionOptions) (line : Text)
    (narrowings : List Narrowing) (k : ℕ) :
    (ofNarrowings options line narrowings).tokens.take k =
      (narrowings.take k).map Narrowing.completed :=
  List.map_take.symm

theorem Completion.filter_suggestions_ofNarrowings {options : CompletionOptions}
    (hcollect : options.collectSuggestions = true) (line : Text) (narrowings : List Narrowing)
    (k : ℕ) :
    (ofNarrowings options line narrowings).suggestions.filter (·.position < k) =
      suggestionsFrom 0 (narrowings.take k) := by
  have hfilter := filter_suggestionsFrom 0 k narrowings
  rw [Nat.zero_add] at hfilter
  rw [ofNarrowings, if_pos hcollect, hfilter]

/-- If the candidates are the same at every evaluation, lines that begin with the same
tokens have the same completed tokens and the same suggestions there. -/
theorem autocomplete_causal {r : Registry W} (hsteady : r.Steady) (hformed : r.WellFormed)
    (options options' : CompletionOptions) (hlimit : options'.limitToFixed = options.limitToFixed)
    {line line' : Text} {k : ℕ} (htokens : (tokenize line').take k = (tokenize line).take k)
    (w w' : W) :
    ∃ completion last completion' last',
      autocomplete r options line w = .ok completion last ∧
      autocomplete r options' line' w' = .ok completion' last' ∧
      completion'.tokens.take k = completion.tokens.take k ∧
      (options.collectSuggestions = true → options'.collectSuggestions = true →
        completion'.suggestions.filter (·.position < k) =
          completion.suggestions.filter (·.position < k)) := by
  obtain ⟨narrowings, hgives⟩ :=
    hsteady.exists_alwaysGives_narrow hformed options.limitToFixed (tokenize line)
  obtain ⟨narrowings', hgives'⟩ :=
    hsteady.exists_alwaysGives_narrow hformed options.limitToFixed (tokenize line')
  obtain ⟨last, h⟩ := hgives w
  obtain ⟨last', h'⟩ := hgives' w'
  have hfirst := hsteady.take_narrow_eq hformed htokens h h'
  refine ⟨.ofNarrowings options line narrowings, last,
    .ofNarrowings options' line' narrowings', last', bind_of_ok h, ?_, ?_, ?_⟩
  · rw [autocomplete, hlimit]
    exact bind_of_ok h'
  · rw [Completion.take_tokens_ofNarrowings, Completion.take_tokens_ofNarrowings, hfirst]
  · intro hcollect hcollect'
    rw [Completion.filter_suggestions_ofNarrowings hcollect,
      Completion.filter_suggestions_ofNarrowings hcollect', hfirst]

/-- Two commands; each evaluation of the live candidates counts, and gives the same. -/
def Registry.ticking : Registry ℕ :=
  { commands :=
      [⟨[.fixed [["teleport".toList, "tp".toList]],
            .live fun count => .ok [["alpha".toList], ["alps".toList]] (count + 1),
            .fixed [["once".toList], ["twice".toList]]], 1,
          fun _ => Script.say []⟩,
        ⟨[.fixed [["tell".toList]], .fixed [["beta".toList]]], 1, fun _ => Script.say []⟩]
    literals := [] }

theorem Registry.ticking_steady : ticking.Steady := by
  simp only [Steady, ticking, List.forall_mem_cons, List.not_mem_nil, IsEmpty.forall_iff,
    implies_true, and_true]
  refine ⟨⟨?_, ?_, ?_⟩, ?_, ?_⟩ <;> exact ⟨_, fun w => ⟨_, rfl⟩⟩

/-- The lines differ in their blanks and in what comes after the second token. -/
theorem autocomplete_causal_ticking :
    Registry.ticking.Steady ∧ Registry.ticking.WellFormed ∧
      (tokenize " te\tAL tw x".toList).take 2 = (tokenize "te  AL on ".toList).take 2 ∧
      ∃ completion last completion' last',
        autocomplete Registry.ticking .full "te  AL on ".toList 0 = .ok completion last ∧
        autocomplete Registry.ticking ⟨false, true, false⟩ " te\tAL tw x".toList 5 =
          .ok completion' last' ∧
        completion.tokens.take 2 = [⟨"tel".toList, false, true⟩, ⟨"alp".toList, false, true⟩] ∧
        completion'.tokens.take 2 = completion.tokens.take 2 ∧
        completion'.suggestions.filter (·.position < 2) =
          completion.suggestions.filter (·.position < 2) := by
  have hsteady := Registry.ticking_steady
  have hformed : Registry.ticking.WellFormed := by decide
  have htokens : (tokenize " te\tAL tw x".toList).take 2 =
      (tokenize "te  AL on ".toList).take 2 := by decide
  obtain ⟨completion, last, completion', last', h, h', hsame, hsuggestions⟩ :=
    autocomplete_causal hsteady hformed .full ⟨false, true, false⟩ rfl htokens 0 5
  have hrun : autocomplete Registry.ticking .full "te  AL on ".toList 0 = .ok _ _ := rfl
  obtain ⟨hcompletion, -⟩ := EStateM.Result.ok.inj (h.symm.trans hrun)
  have hbefore : completion.tokens.take 2 =
      [⟨"tel".toList, false, true⟩, ⟨"alp".toList, false, true⟩] := by
    rw [hcompletion]
    decide +kernel
  exact ⟨hsteady, hformed, htokens, completion, last, completion', last', h, h', hbefore, hsame,
    hsuggestions rfl rfl⟩

end AliasConsole
