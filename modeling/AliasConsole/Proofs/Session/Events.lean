import AliasConsole.Proofs.Session.Taken
import AliasConsole.Session.Keys

/-!
# Events of a console

A console reacts to keys, to text, to submitted lines, to messages and requests
of the program around it, and its world may change between all of them.  Its
history takes a step for an arrow key and has the lines taken up submitted to it
for any other event.  The history of a new console is therefore the log of all
lines that were taken up, in the order in which they were.
-/

namespace AliasConsole

variable {W : Type}

/-- What can happen to a console.  Lines that a command submits may lie `depth` levels
inside each other; it is a matter of each event how many there is room for. -/
inductive Event (W : Type) where
  | press (depth : ℕ) (key : Key)
  | typeText (text : Text)
  | setTyped (text : Text)
  | setOpen (isOpen : Bool)
  | submit (depth : ℕ) (line : Text)
  | print (message : Value)
  | register (request : Registration W (Script W))
  | world (change : W → W)

namespace Session

/-- The session after an event, also if the event ends in a fault. -/
def react (s : Session W) : Event W → Session W
  | .press depth key => sessionAfter (press depth key) s
  | .typeText text => sessionAfter (typeText text) s
  | .setTyped text => sessionAfter (Session.setTyped text) s
  | .setOpen isOpen => sessionAfter (Session.setOpen isOpen) s
  | .submit depth line => sessionAfter (submit depth line) s
  | .print message => sessionAfter (print message) s
  | .register request => sessionAfter (register request) s
  | .world change => { s with world := change s.world }

/-- The session after events one after the other. -/
def reactAll (s : Session W) (events : List (Event W)) : Session W :=
  events.foldl react s

/-- The lines that are taken up by an event. -/
def linesTakenBy (s : Session W) : Event W → List Text
  | .press depth .submit => linesTaken (depth + 1) s.typed s
  | .submit depth line => linesTaken (depth + 1) line s
  | _ => []

/-- What an event calls the history for: a step through it, or the lines taken up. -/
def historyCalls (s : Session W) : Event W → List HistoryCall
  | .press _ .historyUp => [.step (.older s.typed)]
  | .press _ .historyDown => [.step (.newer s.typed)]
  | event => (s.linesTakenBy event).map .submit

/-- The lines that are taken up by events one after the other. -/
def linesTakenByAll (s : Session W) : List (Event W) → List Text
  | [] => []
  | event :: rest => s.linesTakenBy event ++ (s.react event).linesTakenByAll rest

section Preserves

variable {I : Session W → Prop} (hI : Lasting I)
  (htyped : ∀ s typed suggestions, I s → I { s with typed, suggestions })

include hI htyped

/-- A completion reads the world, changes the typed line and the suggestions, and
may add a report. -/
theorem Lasting.preserves_autocomplete : Preserves I autocomplete := by
  intro s hs
  rw [sessionAfter, autocomplete, get_bind]
  refine (hI.preserves_reading _).bind (fun completion => ?_) s hs
  refine Preserves.bind (fun s hs => htyped s _ _ hs) fun _ => ?_
  dsimp only
  split_ifs
  · exact Preserves.pure completion
  · exact (hI.preserves_report _ _ _).bind fun _ => Preserves.pure completion

theorem Lasting.preserves_submitTyped (hhistory : ∀ s history, I s → I { s with history })
    (depth : ℕ) : Preserves I (submitTyped depth) := by
  intro s hs
  have hclear : Preserves I (Session.setTyped []) := fun s hs => htyped s [] s.suggestions hs
  rw [sessionAfter, submitTyped, get_bind]
  refine (hI.preserves_submitAt hhistory (depth + 1) s.typed).bind (fun result => ?_) s hs
  exact hclear.bind fun _ => Preserves.pure result

end Preserves

theorem submits_submitTyped (depth : ℕ) (s : Session W) :
    (sessionAfter (submitTyped depth) s).history =
      (linesTaken (depth + 1) s.typed s).foldl History.submit s.history := by
  rw [sessionAfter, submitTyped, get_bind]
  exact (submits_submitAt (depth + 1) s.typed).bind_left (fun _ _ => rfl) s

/-- Submitting the lines that were taken up is a sequence of calls. -/
theorem callAll_map_submit (h : History) (lines : List Text) :
    h.callAll (lines.map .submit) = lines.foldl History.submit h := by
  rw [History.callAll, List.foldl_map]
  rfl

/-- An event does nothing to the history but call it. -/
theorem history_react (s : Session W) (event : Event W) :
    (s.react event).history = s.history.callAll (s.historyCalls event) := by
  cases event with
  | press depth key =>
      cases key with
      | toggle => rfl
      | close => rfl
      | historyUp => rfl
      | historyDown => rfl
      | backspace => rfl
      | submit =>
          have hsubmits : Submits (do return some (← submitTyped depth) : Action W (Option Result))
              fun s => linesTaken (depth + 1) s.typed s :=
            Submits.bind_left (submits_submitTyped depth) fun _ => Submits.pure _
          exact (hsubmits s).trans (callAll_map_submit _ _).symm
      | autocomplete =>
          have hkept : Preserves (fun s' : Session W => s'.history = s.history) autocomplete :=
            (lasting_history s.history).preserves_autocomplete fun _ _ _ hs => hs
          exact hkept.bind (fun _ => Preserves.pure (none : Option Result)) s rfl
  | typeText text => rfl
  | setTyped text => rfl
  | setOpen isOpen => rfl
  | submit depth line =>
      exact (submits_submitAt (depth + 1) line s).trans (callAll_map_submit _ _).symm
  | print message => exact submits_print message s
  | register request => exact submits_register request s
  | world change => rfl

theorem submittedLines_historyCalls (s : Session W) (event : Event W) :
    submittedLines (s.historyCalls event) = s.linesTakenBy event := by
  fun_cases historyCalls s event with
  | case1 => rfl
  | case2 => rfl
  | case3 =>
      rw [submittedLines, List.filterMap_map]
      exact List.filterMap_some

/-- A property that no step of a script can harm, and that does not depend on the
history, the typed line, the suggestions and whether the console is open, is kept by
every event. -/
theorem Lasting.react {I : Session W → Prop} (hI : Lasting I)
    (hhistory : ∀ s history, I s → I { s with history })
    (hshown : ∀ s typed isOpen suggestions, I s → I { s with typed, isOpen, suggestions })
    {s : Session W} (hs : I s) (event : Event W) : I (s.react event) := by
  have hbrowse : ∀ step, I (sessionAfter (browse step) s) := by
    intro step
    have hrecalled := hhistory s (step s.history s.typed).2 hs
    exact hshown _ (step s.history s.typed).1 s.isOpen s.suggestions hrecalled
  cases event with
  | press depth key =>
      cases key with
      | toggle => exact hshown s s.typed _ s.suggestions hs
      | close => exact hshown s s.typed _ s.suggestions hs
      | historyUp => exact hbrowse History.recallOlder
      | historyDown => exact hbrowse History.recallNewer
      | backspace => exact hshown s _ s.isOpen s.suggestions hs
      | submit =>
          have hsubmits := hI.preserves_submitTyped
            (fun s typed suggestions => hshown s typed s.isOpen suggestions) hhistory depth
          exact hsubmits.bind (fun result => Preserves.pure (some result)) s hs
      | autocomplete =>
          have hcompletes := hI.preserves_autocomplete
            fun s typed suggestions => hshown s typed s.isOpen suggestions
          exact hcompletes.bind (fun _ => Preserves.pure (none : Option Result)) s hs
  | typeText text => exact hshown s _ s.isOpen s.suggestions hs
  | setTyped text => exact hshown s _ s.isOpen s.suggestions hs
  | setOpen isOpen => exact hshown s s.typed _ s.suggestions hs
  | submit depth line => exact hI.preserves_submitAt hhistory (depth + 1) line s hs
  | print message => exact hI.preserves_print message s hs
  | register request => exact hI.preserves_register request s hs
  | world change => exact hI.world s _ hs

theorem Lasting.reactAll {I : Session W → Prop} (hI : Lasting I)
    (hhistory : ∀ s history, I s → I { s with history })
    (hshown : ∀ s typed isOpen suggestions, I s → I { s with typed, isOpen, suggestions })
    {s : Session W} (hs : I s) (events : List (Event W)) : I (s.reactAll events) := by
  induction events generalizing s with
  | nil => exact hs
  | cons event rest ih => exact ih (hI.react hhistory hshown hs event)

theorem output_reactAll (s : Session W) (events : List (Event W)) :
    s.output <:+ (s.reactAll events).output :=
  (lasting_output s.output).reactAll (fun _ _ hs => hs) (fun _ _ _ _ hs => hs)
    (List.suffix_refl _) events

theorem wellFormed_reactAll {s : Session W} (hs : s.registry.WellFormed)
    (events : List (Event W)) : (s.reactAll events).registry.WellFormed :=
  lasting_wellFormed.reactAll (fun _ _ hs => hs) (fun _ _ _ _ hs => hs) hs events

variable {s : Session W} {lines : List Text}

theorem isLogOf_react (hlog : s.history.IsLogOf lines) (event : Event W) :
    (s.react event).history.IsLogOf (lines ++ s.linesTakenBy event) := by
  rw [history_react, ← submittedLines_historyCalls]
  exact hlog.callAll (s.historyCalls event)

/-- Whatever happens to a console, its history is the log of the lines taken up. -/
theorem isLogOf_reactAll (hlog : s.history.IsLogOf lines) (events : List (Event W)) :
    (s.reactAll events).history.IsLogOf (lines ++ s.linesTakenByAll events) := by
  induction events generalizing s lines with
  | nil =>
      rw [linesTakenByAll, List.append_nil]
      exact hlog
  | cons event rest ih =>
      rw [linesTakenByAll, ← List.append_assoc]
      exact ih (isLogOf_react hlog event)

/-- Any calls of a new history leave the log of the submitted lines; a line is
recorded exactly if the entries grow; the cursor stays on the entries, and a step
that moves it onto one shows this one; and submitting ends browsing.  The history
of a new console is the log of all lines that are taken up, whatever happens. -/
theorem entries_eq_loggedLines {W : Type} (calls : List HistoryCall) :
    let h := History.fresh.callAll calls
    h.entries = loggedLines (submittedLines calls) ∧
      (∀ line, h.records line = true ↔ h.entries.length < (h.submit line).entries.length) ∧
      (-1 ≤ h.place ∧ h.place ≤ (h.entries.length : Int) - 1) ∧
      (∀ step, (h.recalled step).2.place ≠ h.place → (h.recalled step).2.isBrowsing = true →
        ∃ index : ℕ, (index : Int) = h.entries.length - (h.recalled step).2.place - 1 ∧
          h.entries[index]? = some (h.recalled step).1) ∧
      (∀ line, (h.submit line).place = -1 ∧ (h.submit line).pending = []) ∧
      ∀ (s : Session W) (events : List (Event W)), s.history = .fresh →
        (s.reactAll events).history.entries = loggedLines (s.linesTakenByAll events) := by
  intro h
  have hlog : h.IsLogOf (submittedLines calls) := History.isLogOf_fresh.callAll calls
  refine ⟨hlog.entries_eq, h.records_eq_true_iff, hlog.inRange.place_bounds, ?_, ?_, ?_⟩
  · intro step hmoves hon
    exact (hlog.inRange.shows_recalled step).getElem? hmoves hon
  · intro line
    exact ⟨rfl, rfl⟩
  · intro s events hfresh
    have hnone : s.history.IsLogOf [] := by
      rw [hfresh]
      exact History.isLogOf_fresh
    exact (isLogOf_reactAll hnone events).entries_eq

/-- A console with a command that submits two lines of its own and then fails. -/
def twice : Session Unit :=
  ofRegistry
    { commands :=
        [⟨[.fixed [["twice".toList]]], 1, fun _ =>
          .submit "say it".toList fun _ => .submit "say it".toList fun _ =>
            .fail (.saying .failure [])⟩]
      literals := [] } ()

/-- The second run repeats the line that the arrow key shows again. -/
def twiceEvents : List (Event Unit) :=
  [.submit 1 "twice".toList, .submit 0 "  ".toList, .typeText "draft".toList,
    .press 0 .historyUp, .press 0 .submit]

theorem entries_eq_loggedLines_twice :
    twice.history = .fresh ∧
      twice.linesTakenByAll twiceEvents =
        ["twice".toList, "say it".toList, "say it".toList, "  ".toList, "say it".toList] ∧
      (twice.reactAll twiceEvents).history.entries = ["twice".toList, "say it".toList] := by
  have htaken : twice.linesTakenByAll twiceEvents =
      ["twice".toList, "say it".toList, "say it".toList, "  ".toList, "say it".toList] := rfl
  refine ⟨rfl, htaken, ?_⟩
  obtain ⟨-, -, -, -, -, hconsole⟩ := entries_eq_loggedLines (W := Unit) []
  rw [hconsole twice twiceEvents rfl, htaken]
  decide

end Session

end AliasConsole
