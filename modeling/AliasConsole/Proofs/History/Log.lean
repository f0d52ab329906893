import AliasConsole.History
import Mathlib.Data.List.Destutter
import Mathlib.Tactic.Common

/-!
# The log of the history

The entries of a history are the submitted lines that have more than spaces,
with runs of equal lines drawn together.  The cursor never leaves the entries,
so that a step through the history shows an entry that is there.
-/

namespace AliasConsole

/-- The lines that have more than spaces, with runs of equal lines drawn together. -/
def loggedLines (lines : List Text) : List Text :=
  (lines.filter fun line => line.any (· != ' ')).destutter (· ≠ ·)

section Destutter

variable {α : Type} [DecidableEq α]

theorem destutter'_concat (first last : α) (l : List α) :
    (l ++ [last]).destutter' (· ≠ ·) first =
      if (l.destutter' (· ≠ ·) first).getLast? = some last then l.destutter' (· ≠ ·) first
      else l.destutter' (· ≠ ·) first ++ [last] := by
  induction l generalizing first with
  | nil =>
      rw [List.nil_append, List.destutter'_singleton, List.destutter'_nil]
      by_cases heq : first = last
      · rw [if_neg (not_not.mpr heq), if_pos (by simp [heq])]
      · rw [if_pos heq, if_neg (by simp [heq])]
        rfl
  | cons next rest ih =>
      rw [List.cons_append]
      by_cases heq : first = next
      · rw [List.destutter'_cons_neg _ (not_not.mpr heq),
          List.destutter'_cons_neg _ (not_not.mpr heq)]
        exact ih first
      · have hlast : (first :: rest.destutter' (· ≠ ·) next).getLast? =
            (rest.destutter' (· ≠ ·) next).getLast? :=
          List.getLast?_cons_of_ne_nil (List.destutter'_ne_nil _ _)
        rw [List.destutter'_cons_pos _ heq, List.destutter'_cons_pos _ heq, hlast, ih next]
        split_ifs <;> rfl

/-- A further item is dropped exactly if it repeats the last one. -/
theorem destutter_concat (last : α) (l : List α) :
    (l ++ [last]).destutter (· ≠ ·) =
      if (l.destutter (· ≠ ·)).getLast? = some last then l.destutter (· ≠ ·)
      else l.destutter (· ≠ ·) ++ [last] := by
  cases l with
  | nil => rfl
  | cons first rest => exact destutter'_concat first last rest

end Destutter

/-- One step through the history, with the line that is shown before it. -/
inductive Recall where
  | older (current : Text)
  | newer (current : Text)
deriving DecidableEq, Repr

/-- A use of the history. -/
inductive HistoryCall where
  | submit (line : Text)
  | step (step : Recall)
deriving DecidableEq, Repr

/-- The lines that are submitted in a sequence of calls. -/
def submittedLines (calls : List HistoryCall) : List Text :=
  calls.filterMap fun
    | .submit line => some line
    | .step _ => none

namespace History

variable {h : History} {lines : List Text} {line : Text}

def recalled (h : History) : Recall → Text × History
  | .older current => h.recallOlder current
  | .newer current => h.recallNewer current

def call (h : History) : HistoryCall → History
  | .submit line => h.submit line
  | .step step => (h.recalled step).2

/-- The history after calls one after the other. -/
def callAll (h : History) (calls : List HistoryCall) : History :=
  calls.foldl call h

/-- The number of steps back from the newest entry, and -1 off the history. -/
def place (h : History) : Int :=
  match h.cursor with
  | none => -1
  | some back => back

/-- The cursor is off the history or on an entry. -/
def InRange (h : History) : Prop :=
  ∀ back, h.cursor = some back → back < h.entries.length

theorem place_of_none (hcursor : h.cursor = none) : h.place = -1 := by
  rw [place, hcursor]

theorem place_of_some {back : ℕ} (hcursor : h.cursor = some back) : h.place = back := by
  rw [place, hcursor]

theorem InRange.of_none (hcursor : h.cursor = none) : h.InRange := by
  intro back hback
  rw [hcursor] at hback
  cases hback

theorem InRange.place_bounds (hrange : h.InRange) :
    -1 ≤ h.place ∧ h.place ≤ (h.entries.length : Int) - 1 := by
  cases hcursor : h.cursor with
  | none =>
      rw [place_of_none hcursor]
      omega
  | some back =>
      have hback := hrange back hcursor
      rw [place_of_some hcursor]
      omega

/-- What a step through the history shows and leaves.  The entry shown stands as
many places before the newest one as the new cursor says. -/
inductive Shows (h : History) : Recall → Text → History → Prop
  /-- There is no older entry. -/
  | atOldest {current : Text} (hoff : h.place + 1 = h.entries.length) :
      Shows h (.older current) current h
  /-- The line being edited is kept. -/
  | start {current shown : Text} (hcursor : h.cursor = none)
      (hshown : h.entries[h.entries.length - 1]? = some shown) :
      Shows h (.older current) shown ⟨h.entries, some 0, current⟩
  | back {current shown : Text} {back : ℕ} (hcursor : h.cursor = some back)
      (hshown : h.entries[h.entries.length - 1 - (back + 1)]? = some shown)
      (hback : back + 1 < h.entries.length) :
      Shows h (.older current) shown ⟨h.entries, some (back + 1), h.pending⟩
  /-- Nothing is browsed. -/
  | off {current : Text} (hcursor : h.cursor = none) : Shows h (.newer current) current h
  | forth {current shown : Text} {back : ℕ} (hcursor : h.cursor = some (back + 1))
      (hshown : h.entries[h.entries.length - 1 - back]? = some shown)
      (hback : back < h.entries.length) :
      Shows h (.newer current) shown ⟨h.entries, some back, h.pending⟩
  /-- The line that was kept is handed back. -/
  | finish {current : Text} (hcursor : h.cursor = some 0) :
      Shows h (.newer current) h.pending ⟨h.entries, none, h.pending⟩

theorem getElem?_entryAt {back : ℕ} (hback : back < h.entries.length) :
    h.entries[h.entries.length - 1 - back]? = some (h.entryAt back) := by
  have hplace : h.entries.length - back - 1 = h.entries.length - 1 - back := by omega
  have hlt : h.entries.length - 1 - back < h.entries.length := by omega
  rw [entryAt, hplace, List.getElem?_eq_getElem hlt, Option.getD_some]

theorem InRange.shows_recalled (hrange : h.InRange) (step : Recall) :
    h.Shows step (h.recalled step).1 (h.recalled step).2 := by
  cases step with
  | older current =>
      rw [recalled, recallOlder, nextBack, isBrowsing]
      cases hcursor : h.cursor with
      | none =>
          dsimp only [Option.isSome]
          rw [if_neg Bool.false_ne_true]
          split_ifs with hempty
          · refine .atOldest ?_
            rw [place_of_none hcursor]
            omega
          · exact .start hcursor (getElem?_entryAt (Nat.not_le.mp hempty))
      | some back =>
          have hback := hrange back hcursor
          dsimp only [Option.isSome]
          rw [if_pos rfl]
          split_ifs with hoff
          · refine .atOldest ?_
            rw [place_of_some hcursor]
            omega
          · exact .back hcursor (getElem?_entryAt (by omega)) (by omega)
  | newer current =>
      rw [recalled, recallNewer]
      cases hcursor : h.cursor with
      | none => exact .off hcursor
      | some back =>
          have hback := hrange back hcursor
          cases back with
          | zero => exact .finish hcursor
          | succ back => exact .forth hcursor (getElem?_entryAt (by omega)) (by omega)

section Shows

variable {step : Recall} {shown : Text} {h' : History}

theorem Shows.entries_eq (hshows : h.Shows step shown h') : h'.entries = h.entries := by
  cases hshows <;> rfl

theorem Shows.inRange (hrange : h.InRange) (hshows : h.Shows step shown h') : h'.InRange := by
  cases hshows with
  | atOldest => exact hrange
  | start hcursor hshown =>
      obtain ⟨hlt, -⟩ := List.getElem?_eq_some_iff.mp hshown
      rintro back ⟨⟩
      change 0 < h.entries.length
      omega
  | back hcursor hshown hback =>
      rintro back ⟨⟩
      exact hback
  | off => exact hrange
  | forth hcursor hshown hback =>
      rintro back ⟨⟩
      exact hback
  | finish => exact InRange.of_none rfl

/-- A step that moves the cursor onto an entry shows this entry, which is there. -/
theorem Shows.getElem? (hshows : h.Shows step shown h') (hmoves : h'.place ≠ h.place)
    (hon : h'.isBrowsing = true) :
    ∃ index : ℕ, (index : Int) = h.entries.length - h'.place - 1 ∧
      h.entries[index]? = some shown := by
  cases hshows with
  | atOldest => exact absurd rfl hmoves
  | start hcursor hshown =>
      obtain ⟨hlt, -⟩ := List.getElem?_eq_some_iff.mp hshown
      refine ⟨_, ?_, hshown⟩
      rw [place_of_some rfl]
      omega
  | back hcursor hshown hback =>
      refine ⟨_, ?_, hshown⟩
      rw [place_of_some rfl]
      omega
  | off => exact absurd rfl hmoves
  | forth hcursor hshown hback =>
      refine ⟨_, ?_, hshown⟩
      rw [place_of_some rfl]
      omega
  | finish => cases hon

end Shows

/-- A further line is logged unless it has spaces only or repeats the newest entry. -/
theorem entries_submit (hlog : h.entries = loggedLines lines) (line : Text) :
    (h.submit line).entries = loggedLines (lines ++ [line]) := by
  rw [submit, records, hlog, loggedLines, loggedLines, List.filter_append]
  cases hblank : line.any (· != ' ') with
  | false => simp [hblank]
  | true =>
      have hkept : [line].filter (fun line => line.any (· != ' ')) = [line] := by simp [hblank]
      rw [hkept, destutter_concat]
      by_cases hrepeats : ((lines.filter fun line => line.any (· != ' ')).destutter
          (· ≠ ·)).getLast? = some line
      · rw [if_pos hrepeats, if_neg (by simp [hrepeats])]
      · rw [if_neg hrepeats, if_pos (by simpa using hrepeats)]

/-- The entries are the log of the lines, and the cursor does not leave them. -/
structure IsLogOf (h : History) (lines : List Text) : Prop where
  entries_eq : h.entries = loggedLines lines
  inRange : h.InRange

theorem isLogOf_fresh : fresh.IsLogOf [] :=
  ⟨rfl, InRange.of_none rfl⟩

theorem IsLogOf.submit (hlog : h.IsLogOf lines) (line : Text) :
    (h.submit line).IsLogOf (lines ++ [line]) :=
  ⟨entries_submit hlog.entries_eq line, InRange.of_none rfl⟩

theorem IsLogOf.recalled (hlog : h.IsLogOf lines) (step : Recall) :
    (h.recalled step).2.IsLogOf lines := by
  have hshows := hlog.inRange.shows_recalled step
  exact ⟨hshows.entries_eq.trans hlog.entries_eq, hshows.inRange hlog.inRange⟩

theorem IsLogOf.callAll (hlog : h.IsLogOf lines) (calls : List HistoryCall) :
    (h.callAll calls).IsLogOf (lines ++ submittedLines calls) := by
  induction calls generalizing h lines with
  | nil =>
      rw [submittedLines, List.filterMap_nil, List.append_nil]
      exact hlog
  | cons call rest ih =>
      cases call with
      | submit line =>
          have hrest := ih (hlog.submit line)
          rw [List.append_assoc] at hrest
          exact hrest
      | step step => exact ih (hlog.recalled step)

theorem records_eq_true_iff (h : History) (line : Text) :
    h.records line = true ↔ h.entries.length < (h.submit line).entries.length := by
  rw [submit]
  cases hrecords : h.records line with
  | true => simp
  | false => simp

end History

end AliasConsole
