import AliasConsole.Proofs.History.Browsing
import AliasConsole.Proofs.Session.Events

/-!
# Browsing at the console

The arrow keys browse the history of the console.  In between the shown line may
be edited, completed or replaced, and anything else may happen: as long as the
cursor stays on an entry the history keeps the line that was typed before, and
the key that ends browsing types it again.
-/

namespace AliasConsole

namespace History

variable {h : History}

theorem cursor_callAll_submit {lines : List Text} (hne : lines ≠ []) :
    (h.callAll (lines.map .submit)).cursor = none := by
  obtain ⟨front, last, rfl⟩ := List.eq_nil_or_concat lines |>.resolve_left hne
  rw [callAll, List.concat_eq_append, List.map_append, List.foldl_append]
  rfl

end History

namespace Session

variable {W : Type} {s : Session W} {event : Event W} {draft : Text}

/-- An event takes a step through the history, leaves it alone or ends browsing. -/
theorem history_react_cases (s : Session W) (event : Event W) :
    (∃ step, (s.react event).history = (s.history.recalled step).2) ∨
      (s.react event).history = s.history ∨ (s.react event).history.cursor = none := by
  rw [history_react]
  fun_cases historyCalls s event with
  | case1 => exact Or.inl ⟨.older s.typed, rfl⟩
  | case2 => exact Or.inl ⟨.newer s.typed, rfl⟩
  | case3 =>
      right
      by_cases hlines : s.linesTakenBy event = []
      · rw [hlines]
        exact Or.inl rfl
      · exact Or.inr (History.cursor_callAll_submit hlines)

/-- The cursor is on an entry, and the line is kept for the end of browsing. -/
structure Browses (draft : Text) (s : Session W) : Prop where
  isBrowsing : s.history.isBrowsing = true
  inRange : s.history.InRange
  pending_eq : s.history.pending = draft

/-- The key for an older entry keeps the typed line. -/
theorem browses_historyUp (hcursor : s.history.cursor = none) (hne : s.history.entries ≠ [])
    (depth : ℕ) (hon : (s.react (.press depth .historyUp)).history.isBrowsing = true) :
    (s.react (.press depth .historyUp)).Browses s.typed := by
  have hfollows := History.follows_start hcursor hne s.typed
  exact ⟨hon, hfollows.inRange, hfollows.pending_eq⟩

/-- Whatever happens, the line is kept as long as browsing goes on. -/
theorem Browses.react (h : s.Browses draft)
    (hon : (s.react event).history.isBrowsing = true) : (s.react event).Browses draft := by
  rcases s.history_react_cases event with ⟨step, hstep⟩ | hsame | hnone
  · have hshows := h.inRange.shows_recalled step
    rw [← hstep] at hshows
    exact ⟨hon, hshows.inRange h.inRange, (hshows.pending_eq h.isBrowsing).trans h.pending_eq⟩
  · refine ⟨hon, ?_, ?_⟩
    · rw [hsame]
      exact h.inRange
    · rw [hsame]
      exact h.pending_eq
  · rw [History.isBrowsing, hnone] at hon
    cases hon

theorem browses_reactAll (hcursor : s.history.cursor = none) (hne : s.history.entries ≠ [])
    {depth : ℕ} {events : List (Event W)}
    (hon : ∀ front, front <+: events →
      (s.reactAll (.press depth .historyUp :: front)).history.isBrowsing = true) :
    (s.reactAll (.press depth .historyUp :: events)).Browses s.typed := by
  induction events using List.reverseRecOn with
  | nil => exact browses_historyUp hcursor hne depth (hon [] (List.prefix_refl _))
  | append_singleton front event ih =>
      have hfront := ih fun shorter hshorter =>
        hon shorter (hshorter.trans (List.prefix_append front [event]))
      have hlast := hon (front ++ [event]) (List.prefix_refl _)
      rw [← List.cons_append, reactAll, List.foldl_concat] at hlast ⊢
      exact hfront.react hlast

/-- The key that ends browsing types the kept line again. -/
theorem Browses.typed_historyDown (h : s.Browses draft) {depth : ℕ}
    (hoff : (s.react (.press depth .historyDown)).history.isBrowsing = false) :
    (s.react (.press depth .historyDown)).typed = draft := by
  have hshows := h.inRange.shows_recalled (.newer s.typed)
  calc (s.react (.press depth .historyDown)).typed
      = (s.history.recalled (.newer s.typed)).1 := rfl
    _ = s.history.pending := hshows.eq_pending h.isBrowsing hoff
    _ = draft := h.pending_eq

/-- A browse of the history is a walk between the oldest and the newest entry
that shows the entries it comes to, stops at the oldest one, keeps the draft and
hands it back when it leaves the entries.  At the console, whatever happens while
the cursor is on an entry, the key that ends browsing types the old line again. -/
theorem browse_returns {W : Type} :
    (∀ (h : History) (draft : Text) (steps : List Recall) (step : Recall),
      h.cursor = none → h.entries ≠ [] →
      IsBrowse h.entries.length draft (steps ++ [step]) →
        let before := h.recallAll steps
        let shown := (before.recalled step).1
        let after := (before.recalled step).2
        after.entries = h.entries ∧ after.pending = draft ∧
          after.place = walk h.entries.length (steps ++ [step]) ∧
          (after.place ≠ before.place → 0 ≤ after.place →
            ∃ index : ℕ, (index : Int) = h.entries.length - 1 - after.place ∧
              h.entries[index]? = some shown) ∧
          (∀ current, step = .older current → before.place = h.entries.length - 1 →
            shown = current ∧ after = before) ∧
          (after.place = -1 → shown = draft)) ∧
      ∀ (s : Session W) (depth depth' : ℕ) (events : List (Event W)),
        s.history.cursor = none → s.history.entries ≠ [] →
        (∀ front, front <+: events →
          (s.reactAll (.press depth .historyUp :: front)).history.isBrowsing = true) →
        let reached := s.reactAll (.press depth .historyUp :: events)
        (reached.react (.press depth' .historyDown)).history.isBrowsing = false →
          (reached.react (.press depth' .historyDown)).typed = s.typed := by
  constructor
  · intro h draft steps step hcursor hne hbrowse before shown after
    have hafter : h.Follows draft (steps ++ [step]) after := by
      have hfollows := History.follows_recallAll hcursor hne hbrowse
      rwa [History.recallAll_concat] at hfollows
    have hbefore : before.InRange ∧ before.entries = h.entries := by
      rcases History.follows_of_concat hcursor hne hbrowse with ⟨rfl, -⟩ | ⟨hfollows, -⟩
      · exact ⟨.of_none hcursor, rfl⟩
      · exact ⟨hfollows.inRange, hfollows.entries_eq⟩
    obtain ⟨hrange, hentries⟩ := hbefore
    have hshows : before.Shows step shown after := hrange.shows_recalled step
    refine ⟨hafter.entries_eq, hafter.pending_eq, hafter.place_eq, ?_, ?_, ?_⟩
    · intro hmoves hon
      obtain ⟨index, hindex, hshown⟩ := hshows.getElem? hmoves (History.isBrowsing_iff.mpr hon)
      rw [hentries] at hindex hshown
      exact ⟨index, by omega, hshown⟩
    · rintro current rfl holdest
      have hrecall : before.recalled (.older current) = (current, before) :=
        History.recalled_older_of_oldest (by rw [hentries]; omega)
      exact Prod.mk.inj hrecall
    · intro hleft
      have hoff : after.isBrowsing = false := by
        rw [← Bool.not_eq_true, History.isBrowsing_iff]
        omega
      rcases History.follows_of_concat hcursor hne hbrowse with ⟨rfl, rfl⟩ | ⟨hfollows, hon⟩
      · have hlength : 0 < h.entries.length := List.length_pos_of_ne_nil hne
        have hplace := hafter.place_eq
        simp only [List.nil_append, walk, List.foldl_cons, List.foldl_nil, walkStep] at hplace
        omega
      · exact (hshows.eq_pending hon hoff).trans hfollows.pending_eq
  · intro s depth depth' events hcursor hne hon reached hoff
    exact (browses_reactAll hcursor hne hon).typed_historyDown hoff

/-- A history with two entries. -/
def travelled : History := ⟨["go east".toList, "go west".toList], none, "forgotten".toList⟩

/-- Steps that bump into the oldest entry while the shown line is edited. -/
def stepsBack : List Recall :=
  [.older "draft".toList, .older "go west!".toList, .older "edited".toList,
    .newer "edited again".toList]

/-- A console with this history and a line that has not been submitted. -/
def traveller : Session Unit :=
  { ofRegistry ⟨[⟨[.fixed [["going".toList]]], 1, fun _ => Script.say []⟩], []⟩ () with
    history := travelled
    typed := "draft".toList }

/-- The shown line is completed, edited and stepped over. -/
def travellerEvents : List (Event Unit) :=
  [.press 0 .autocomplete, .press 0 .historyUp, .typeText "wards".toList, .press 0 .backspace,
    .press 0 .toggle, .print (.text "tick".toList), .press 0 .historyDown]

theorem browse_returns_travelled :
    IsBrowse travelled.entries.length "draft".toList (stepsBack ++ [.newer []]) ∧
      ((travelled.recallAll stepsBack).recalled (.newer [])).1 = "draft".toList ∧
      (∀ front ∈ travellerEvents.inits,
        (traveller.reactAll (.press 0 .historyUp :: front)).history.isBrowsing = true) ∧
      ((traveller.reactAll (.press 0 .historyUp :: travellerEvents)).react
        (.press 0 .historyDown)).typed = "draft".toList := by
  have hbrowse : IsBrowse travelled.entries.length "draft".toList (stepsBack ++ [.newer []]) := by
    decide
  have hon : ∀ front ∈ travellerEvents.inits,
      (traveller.reactAll (.press 0 .historyUp :: front)).history.isBrowsing = true := by
    decide +kernel
  obtain ⟨hnavigator, hconsole⟩ := browse_returns (W := Unit)
  have hsteps := hnavigator travelled "draft".toList stepsBack (.newer []) rfl (by decide) hbrowse
  obtain ⟨-, -, -, -, -, hreturns⟩ := hsteps
  refine ⟨hbrowse, hreturns (by decide), hon, ?_⟩
  exact hconsole traveller 0 0 travellerEvents rfl (by decide)
    (fun front hfront => hon front ((List.mem_inits front travellerEvents).mpr hfront))
    (by decide +kernel)

end Session

end AliasConsole
