import AliasConsole.Proofs.History.Log
import Mathlib.Data.List.Infix

/-!
# Browsing the history

Browsing starts with a step back from the line being edited and lasts until the
cursor leaves the history again.  Meanwhile the cursor walks one entry back or
forth and stops at the oldest entry, whatever lines are shown and edited on the
way.  The line that was being edited is kept all the time and handed back at the
end.
-/

namespace AliasConsole

/-- One step of a walk through a number of entries, counted back from the newest
one; -1 is off the entries. -/
def walkStep (count : ℕ) (place : Int) : Recall → Int
  | .older _ => min (place + 1) (count - 1)
  | .newer _ => place - 1

/-- A walk that begins off the entries. -/
def walk (count : ℕ) (steps : List Recall) : Int :=
  steps.foldl (walkStep count) (-1)

/-- Steps that begin with a step back from the draft and leave the entries with
the last step, if at all. -/
structure IsBrowse (count : ℕ) (draft : Text) (steps : List Recall) : Prop where
  starts : steps.head? = some (.older draft)
  stays : ∀ front, front <+: steps → front ≠ steps → front ≠ [] → 0 ≤ walk count front

instance (count : ℕ) (draft : Text) (steps : List Recall) :
    Decidable (IsBrowse count draft steps) :=
  decidable_of_iff (steps.head? = some (.older draft) ∧
      ∀ front ∈ steps.inits, front ≠ steps → front ≠ [] → 0 ≤ walk count front)
    ⟨fun h => ⟨h.1, fun front hfront => h.2 front ((List.mem_inits front steps).mpr hfront)⟩,
      fun h => ⟨h.1, fun front hfront => h.2 front ((List.mem_inits front steps).mp hfront)⟩⟩

theorem walk_concat (count : ℕ) (steps : List Recall) (step : Recall) :
    walk count (steps ++ [step]) = walkStep count (walk count steps) step :=
  List.foldl_concat _ _ _ _

theorem IsBrowse.of_concat {count : ℕ} {draft : Text} {steps : List Recall} {step : Recall}
    (h : IsBrowse count draft (steps ++ [step])) (hne : steps ≠ []) :
    IsBrowse count draft steps ∧ 0 ≤ walk count steps := by
  have hpre : steps <+: steps ++ [step] := List.prefix_append _ _
  have hshorter : ∀ front, front <+: steps → front ≠ steps ++ [step] := by
    rintro front hfront rfl
    have hle := hfront.length_le
    rw [List.length_append, List.length_singleton] at hle
    omega
  refine ⟨⟨?_, ?_⟩, h.stays steps hpre (hshorter steps (List.prefix_refl _)) hne⟩
  · rw [← h.starts, List.head?_append_of_ne_nil _ hne]
  · exact fun front hfront _ hfront' =>
      h.stays front (hfront.trans hpre) (hshorter front hfront) hfront'

namespace History

variable {h h' : History} {draft shown : Text} {step : Recall} {steps : List Recall}

/-- The history after steps one after the other. -/
def recallAll (h : History) (steps : List Recall) : History :=
  steps.foldl (fun h step => (h.recalled step).2) h

theorem recallAll_concat (h : History) (steps : List Recall) (step : Recall) :
    h.recallAll (steps ++ [step]) = ((h.recallAll steps).recalled step).2 :=
  List.foldl_concat _ _ _ _

theorem isBrowsing_iff : h.isBrowsing = true ↔ 0 ≤ h.place := by
  rw [isBrowsing, place]
  cases h.cursor with
  | none => simp
  | some back => simp

/-- The cursor follows the walk, unless it is asked forth from outside the
history, where it stays. -/
theorem Shows.place_eq (hshows : h.Shows step shown h') (hne : h.entries ≠ [])
    (hstep : 0 ≤ h.place ∨ ∃ current, step = .older current) :
    h'.place = walkStep h.entries.length h.place step := by
  have hlength : 0 < h.entries.length := List.length_pos_of_ne_nil hne
  cases hshows with
  | atOldest hoff =>
      rw [walkStep]
      omega
  | start hcursor =>
      rw [walkStep, place_of_none hcursor, place_of_some rfl]
      omega
  | back hcursor hshown hback =>
      rw [walkStep, place_of_some hcursor, place_of_some rfl]
      omega
  | off hcursor =>
      rw [place_of_none hcursor] at hstep
      rcases hstep with hon | ⟨current, hcurrent⟩
      · omega
      · cases hcurrent
  | forth hcursor =>
      rw [walkStep, place_of_some hcursor, place_of_some rfl]
      omega
  | finish hcursor =>
      rw [walkStep, place_of_some hcursor, place_of_none rfl]
      rfl

theorem Shows.pending_eq (hshows : h.Shows step shown h') (hon : h.isBrowsing = true) :
    h'.pending = h.pending := by
  cases hshows with
  | start hcursor =>
      rw [isBrowsing, hcursor] at hon
      cases hon
  | atOldest => rfl
  | back => rfl
  | off => rfl
  | forth => rfl
  | finish => rfl

/-- The step that ends browsing shows the line that was kept. -/
theorem Shows.eq_pending (hshows : h.Shows step shown h') (hon : h.isBrowsing = true)
    (hoff : h'.isBrowsing = false) : shown = h.pending := by
  cases hshows with
  | finish => rfl
  | atOldest =>
      rw [hon] at hoff
      cases hoff
  | off hcursor =>
      rw [isBrowsing, hcursor] at hon
      cases hon
  | start => cases hoff
  | back => cases hoff
  | forth => cases hoff

theorem nextBack_eq (h : History) : (h.nextBack : Int) = h.place + 1 := by
  rw [nextBack, place]
  cases h.cursor with
  | none => rfl
  | some back => rfl

/-- At the oldest entry a step back shows the line that it is given and changes
nothing. -/
theorem recalled_older_of_oldest {current : Text} (hoff : h.place + 1 = h.entries.length) :
    h.recalled (.older current) = (current, h) := by
  have hnext := h.nextBack_eq
  rw [recalled, recallOlder, if_pos (by omega)]

/-- Steps of browsing have led from one history to another. -/
structure Follows (h : History) (draft : Text) (steps : List Recall) (reached : History) :
    Prop where
  entries_eq : reached.entries = h.entries
  pending_eq : reached.pending = draft
  place_eq : reached.place = walk h.entries.length steps
  inRange : reached.InRange

/-- The first step keeps the draft. -/
theorem follows_start (hcursor : h.cursor = none) (hne : h.entries ≠ []) (draft : Text) :
    h.Follows draft [.older draft] (h.recalled (.older draft)).2 := by
  have hrange : h.InRange := .of_none hcursor
  have hshows := hrange.shows_recalled (.older draft)
  refine ⟨hshows.entries_eq, ?_, ?_, hshows.inRange hrange⟩
  · have hlength : 0 < h.entries.length := List.length_pos_of_ne_nil hne
    rw [recalled, recallOlder, nextBack, isBrowsing, hcursor]
    dsimp only
    rw [if_neg (Nat.not_le.mpr hlength)]
    rfl
  · rw [hshows.place_eq hne (Or.inr ⟨draft, rfl⟩), place_of_none hcursor]
    rfl

theorem Follows.recalled {reached : History} (hfollows : h.Follows draft steps reached)
    (hne : h.entries ≠ []) (hon : 0 ≤ walk h.entries.length steps) (step : Recall) :
    h.Follows draft (steps ++ [step]) (reached.recalled step).2 := by
  have hshows := hfollows.inRange.shows_recalled step
  have hbrowsing : 0 ≤ reached.place := by rwa [hfollows.place_eq]
  have hplace := hshows.place_eq (by rwa [hfollows.entries_eq]) (Or.inl hbrowsing)
  refine ⟨hshows.entries_eq.trans hfollows.entries_eq, ?_, ?_, hshows.inRange hfollows.inRange⟩
  · exact (hshows.pending_eq (isBrowsing_iff.mpr hbrowsing)).trans hfollows.pending_eq
  · rw [hplace, hfollows.entries_eq, hfollows.place_eq, walk_concat]

/-- A browse takes the history along the walk. -/
theorem follows_recallAll (hcursor : h.cursor = none) (hne : h.entries ≠ [])
    (hbrowse : IsBrowse h.entries.length draft steps) :
    h.Follows draft steps (h.recallAll steps) := by
  induction steps using List.reverseRecOn with
  | nil => cases hbrowse.starts
  | append_singleton front step ih =>
      by_cases hfront : front = []
      · subst hfront
        obtain rfl := Option.some.inj hbrowse.starts
        exact follows_start hcursor hne draft
      · obtain ⟨hbefore, hon⟩ := hbrowse.of_concat hfront
        rw [recallAll_concat]
        exact (ih hbefore).recalled hne hon step

/-- Before the last step of a browse nothing has been browsed yet, or the cursor
is on an entry and the draft is kept. -/
theorem follows_of_concat (hcursor : h.cursor = none) (hne : h.entries ≠ [])
    (hbrowse : IsBrowse h.entries.length draft (steps ++ [step])) :
    (steps = [] ∧ step = .older draft) ∨
      (h.Follows draft steps (h.recallAll steps) ∧ (h.recallAll steps).isBrowsing = true) := by
  by_cases hsteps : steps = []
  · subst hsteps
    exact Or.inl ⟨rfl, Option.some.inj hbrowse.starts⟩
  · obtain ⟨hbefore, hon⟩ := hbrowse.of_concat hsteps
    have hfollows := follows_recallAll hcursor hne hbefore
    refine Or.inr ⟨hfollows, isBrowsing_iff.mpr ?_⟩
    rwa [hfollows.place_eq]

end History

end AliasConsole
