import AliasConsole.Logging.Logger
import Mathlib.Data.Int.Order.Basic
import Mathlib.Data.List.Basic
import Mathlib.Data.List.Induction
import Mathlib.Tactic.SplitIfs

/-!
# Loggers that are initialised again

An initialisation treats the console handlers and the file handlers of a logger apart.
The first one adds the console handler and every one sets its level, so what is shown
depends on the last level alone.  The first log file adds the file handler, which lets
everything through, but the level of the logger stands before all handlers, and an
initialisation without a log file raises it again.
-/

namespace AliasConsole

theorem Handler.isConsole_setConsoleLevel (level : Level) (h : Handler) :
    (h.setConsoleLevel level).isConsole = h.isConsole := by
  cases h <;> rfl

/-- What is asked of one initialisation, and whether the console shows styles at the time. -/
structure Initialisation where
  shownInStyle : Bool
  request : LevelRequest
  /-- The path of the log file, if one is given; a file that fails to open counts as none. -/
  file : Option Text
deriving DecidableEq, Repr

/-- The log file that is asked for: an empty path names none. -/
def Initialisation.logFile? (c : Initialisation) : Option Text := Logger.logFile? c.file

/-- A level from debug to critical is asked for, by its name or by its number. -/
def LevelRequest.IsUsual (request : LevelRequest) : Prop :=
  ∃ level, request.level = .ok level ∧ Level.debug ≤ level ∧ level ≤ Level.critical

theorem LevelRequest.IsUsual.debug_le {request : LevelRequest} {level : Level}
    (h : request.IsUsual) (hlevel : request.level = .ok level) : Level.debug ≤ level := by
  obtain ⟨usual, husual, hdebug, -⟩ := h
  obtain rfl : usual = level := Except.ok.inj (husual.symm.trans hlevel)
  exact hdebug

namespace Delivery

def isToConsole : Delivery → Bool
  | toConsole _ => true
  | toFile .. => false

def isToFile (d : Delivery) : Bool := !d.isToConsole

end Delivery

namespace Logger

variable {l : Logger} {level : Level} {calls : List Initialisation} {first last : Initialisation}

/-- The handlers that write to the console. -/
def consoles (l : Logger) : List Handler := l.handlers.filter Handler.isConsole

/-- The handlers that write to a file. -/
def files (l : Logger) : List Handler := l.handlers.filter Handler.isFile

/-- The file handlers of a logger that has opened a log file, or none yet. -/
def logHandlers (log : Option Text) : List Handler :=
  (log.map fun path => Handler.file path Level.unset).toList

def initialise (l : Logger) (c : Initialisation) : Logger :=
  (l.request c.shownInStyle c.request c.file).2

/-- The logger after initialisations one after the other. -/
def initialiseAll (l : Logger) (calls : List Initialisation) : Logger :=
  calls.foldl initialise l

/-! ## One initialisation -/

section Adding

variable {p q : Handler → Bool} {h : Handler}

/-- A handler that is added unless there is one of its kind is the first of its kind. -/
theorem filter_add_unless (hp : p h = true) (handlers : List Handler) :
    (if handlers.any p then handlers else handlers ++ [h]).filter p =
      if handlers.filter p = [] then [h] else handlers.filter p := by
  by_cases hany : handlers.any p = true
  · have hsome : handlers.filter p ≠ [] := by
      intro hnil
      obtain ⟨other, hother, hkind⟩ := List.any_eq_true.mp hany
      exact List.filter_eq_nil_iff.mp hnil other hother hkind
    rw [if_pos hany, if_neg hsome]
  · have hnone : handlers.filter p = [] := by
      rw [List.filter_eq_nil_iff]
      intro other hother hkind
      exact hany (List.any_eq_true.mpr ⟨other, hother, hkind⟩)
    rw [if_neg hany, if_pos hnone, List.filter_append, hnone, List.nil_append,
      List.filter_cons_of_pos hp, List.filter_nil]

theorem filter_add_unless_of_other (hq : q h = false) (handlers : List Handler) :
    (if handlers.any p then handlers else handlers ++ [h]).filter q = handlers.filter q := by
  by_cases hany : handlers.any p = true
  · rw [if_pos hany]
  · rw [if_neg hany, List.filter_append, List.filter_cons_of_neg (ne_true_of_eq_false hq),
      List.filter_nil, List.append_nil]

end Adding

theorem filter_isConsole_setFirstConsoleLevel (level : Level) (handlers : List Handler) :
    (setFirstConsoleLevel level handlers).filter Handler.isConsole =
      (handlers.filter Handler.isConsole).modifyHead (Handler.setConsoleLevel level) := by
  induction handlers with
  | nil => rfl
  | cons h rest ih =>
      rw [setFirstConsoleLevel]
      by_cases hconsole : h.isConsole = true
      · have hset : (h.setConsoleLevel level).isConsole = true := by
          rwa [Handler.isConsole_setConsoleLevel]
        rw [if_pos hconsole, List.filter_cons_of_pos hset, List.filter_cons_of_pos hconsole,
          List.modifyHead_cons]
      · rw [if_neg hconsole, List.filter_cons_of_neg hconsole, List.filter_cons_of_neg hconsole,
          ih]

theorem filter_isFile_setFirstConsoleLevel (level : Level) (handlers : List Handler) :
    (setFirstConsoleLevel level handlers).filter Handler.isFile =
      handlers.filter Handler.isFile := by
  induction handlers with
  | nil => rfl
  | cons h rest ih =>
      rw [setFirstConsoleLevel]
      by_cases hconsole : h.isConsole = true
      · have hset : (h.setConsoleLevel level).isFile = false := by
          rw [Handler.isFile, Handler.isConsole_setConsoleLevel, hconsole, Bool.not_true]
        have hfile : h.isFile = false := by rw [Handler.isFile, hconsole, Bool.not_true]
        rw [if_pos hconsole, List.filter_cons_of_neg (ne_true_of_eq_false hset),
          List.filter_cons_of_neg (ne_true_of_eq_false hfile)]
      · rw [if_neg hconsole, List.filter_cons, List.filter_cons, ih]

section Init

variable (shownInStyle : Bool) (level : Level) (file : Option Text) (l : Logger)

/-- After an initialisation the first console handler has its level; there is a new one
only if there was none. -/
theorem consoles_init :
    (l.init shownInStyle level file).consoles =
      (if l.consoles = [] then [.console Level.unset shownInStyle] else l.consoles).modifyHead
        (Handler.setConsoleLevel level) := by
  have hset : ((l.attachConsole shownInStyle).setLevel level).consoles =
      (if l.consoles = [] then [.console Level.unset shownInStyle] else l.consoles).modifyHead
        (Handler.setConsoleLevel level) := by
    rw [consoles, setLevel, filter_isConsole_setFirstConsoleLevel, attachConsole,
      filter_add_unless rfl, consoles]
  rw [init]
  split
  · exact hset
  · rw [← hset]
    exact filter_add_unless_of_other (q := Handler.isConsole) (h := .file _ _) rfl _

theorem files_init {log : Option Text} (hlog : l.files = logHandlers log) :
    (l.init shownInStyle level file).files = logHandlers (log.or (logFile? file)) := by
  have hset : ((l.attachConsole shownInStyle).setLevel level).files = logHandlers log := by
    rw [files, setLevel, filter_isFile_setFirstConsoleLevel, attachConsole,
      filter_add_unless_of_other rfl, ← files, hlog]
  rw [init]
  split
  case h_1 hnone => rwa [hnone, Option.or_none]
  case h_2 path hpath =>
      have hattached := filter_add_unless (p := Handler.isFile) (h := .file path Level.unset) rfl
        ((l.attachConsole shownInStyle).setLevel level).handlers
      rw [← files, hset] at hattached
      rw [hpath]
      refine hattached.trans ?_
      cases log <;> rfl

theorem propagate_init : (l.init shownInStyle level file).propagate = false := by
  rw [init]
  split <;> rfl

theorem effectiveLevel_init (hlevel : Level.debug ≤ level) :
    (l.init shownInStyle level file).effectiveLevel =
      if (logFile? file).isSome then Level.debug else level := by
  rw [init]
  split
  case h_1 hnone =>
      have hset : level ≠ Level.unset := by
        rintro rfl
        exact absurd hlevel (by decide)
      rw [hnone]
      exact if_neg hset
  case h_2 path hpath =>
      rw [hpath]
      rfl

end Init

theorem initialise_of_ok {c : Initialisation} (h : c.request.level = .ok level) (l : Logger) :
    l.initialise c = l.init c.shownInStyle level c.file := by
  rw [initialise, request, h]

/-! ## Many initialisations -/

theorem initialiseAll_concat (l : Logger) (calls : List Initialisation) (c : Initialisation) :
    l.initialiseAll (calls ++ [c]) = (l.initialiseAll calls).initialise c :=
  List.foldl_concat ..

/-- However often a logger is initialised, the console handler of the first time stays the
only one, with the level of the last time. -/
theorem consoles_initialiseAll (hl : l.consoles = []) (hcalls : ∀ c ∈ calls, c.request.IsUsual)
    (hfirst : calls.head? = some first) (hlast : calls.getLast? = some last)
    (hlevel : last.request.level = .ok level) :
    (l.initialiseAll calls).consoles = [.console level first.shownInStyle] := by
  induction calls using List.reverseRecOn generalizing last level with
  | nil => simp at hlast
  | append_singleton before c ih =>
      obtain rfl : c = last := by simpa using hlast
      rw [initialiseAll_concat, initialise_of_ok hlevel, consoles_init]
      by_cases hbefore : before = []
      · subst hbefore
        obtain rfl : c = first := by simpa using hfirst
        rw [initialiseAll, List.foldl_nil, if_pos hl]
        rfl
      · have hprevious := List.getLast?_eq_some_getLast hbefore
        obtain ⟨old, hold, -⟩ := hcalls _ (List.mem_append_left [c] (List.getLast_mem hbefore))
        rw [List.head?_append_of_ne_nil _ hbefore] at hfirst
        have hshown := ih (fun d hd => hcalls d (List.mem_append_left [c] hd)) hfirst hprevious hold
        rw [hshown, if_neg (List.cons_ne_nil _ _)]
        rfl

theorem files_initialiseAll (hl : l.files = []) (hcalls : ∀ c ∈ calls, c.request.IsUsual) :
    (l.initialiseAll calls).files = logHandlers (calls.findSome? Initialisation.logFile?) := by
  induction calls using List.reverseRecOn with
  | nil => exact hl
  | append_singleton before c ih =>
      obtain ⟨level, hlevel, -⟩ := hcalls c (List.mem_append_right before List.mem_cons_self)
      have hbefore := ih fun d hd => hcalls d (List.mem_append_left [c] hd)
      rw [initialiseAll_concat, initialise_of_ok hlevel, files_init _ _ _ _ hbefore,
        List.findSome?_append, List.findSome?_singleton, Initialisation.logFile?]

section Last

variable (hlast : calls.getLast? = some last) (hlevel : last.request.level = .ok level)

include hlast hlevel

/-- What came before the last initialisation is some logger that it starts from. -/
theorem exists_initialiseAll_eq (l : Logger) :
    ∃ before, l.initialiseAll calls =
      (l.initialiseAll before).init last.shownInStyle level last.file := by
  obtain ⟨before, rfl⟩ := List.getLast?_eq_some_iff.mp hlast
  exact ⟨before, by rw [initialiseAll_concat, initialise_of_ok hlevel]⟩

theorem propagate_initialiseAll (l : Logger) : (l.initialiseAll calls).propagate = false := by
  obtain ⟨before, heq⟩ := exists_initialiseAll_eq hlast hlevel l
  rw [heq, propagate_init]

/-- The last initialisation decides from which level on a logger lets records through. -/
theorem effectiveLevel_initialiseAll (hdebug : Level.debug ≤ level) (l : Logger) :
    (l.initialiseAll calls).effectiveLevel =
      if last.logFile?.isSome then Level.debug else level := by
  obtain ⟨before, heq⟩ := exists_initialiseAll_eq hlast hlevel l
  rw [heq, effectiveLevel_init _ _ _ _ hdebug, Initialisation.logFile?]

end Last

/-! ## What a record reaches -/

section Emit

variable {stamp : Text} {r : Record} {p : Delivery → Bool} {q : Handler → Bool}

theorem isToConsole_deliver (h : Handler) : (h.deliver stamp r).isToConsole = h.isConsole := by
  cases h <;> rfl

theorem isToFile_deliver (h : Handler) : (h.deliver stamp r).isToFile = h.isFile := by
  rw [Delivery.isToFile, isToConsole_deliver, Handler.isFile]

/-- A record that a logger lets through is written by the handlers whose level it has. -/
theorem filter_emit (hne : l.handlers ≠ [])
    (hkind : ∀ h : Handler, p (h.deliver stamp r) = q h) :
    (l.emit stamp r).filter p =
      if r.level ≤ Level.unset ∨ r.level < l.effectiveLevel then []
      else ((l.handlers.filter q).filter fun h => h.level ≤ r.level).map
        (Handler.deliver stamp r) := by
  have hcomp : p ∘ Handler.deliver stamp r = q := funext hkind
  rw [emit, if_neg (by simpa using hne), reached]
  simp only [Bool.or_eq_true, decide_eq_true_eq]
  split_ifs with hstopped
  · rfl
  · rw [List.filter_map, hcomp, List.filter_comm]

theorem filter_isToConsole_emit {shownInStyle : Bool}
    (hconsoles : l.consoles = [.console level shownInStyle])
    (hlevel : Level.unset < level) (heffective : l.effectiveLevel ≤ level) :
    (l.emit stamp r).filter Delivery.isToConsole =
      if level ≤ r.level then [.toConsole (r.consoleLine shownInStyle)] else [] := by
  have hne : l.handlers ≠ [] := by
    intro hnil
    simp [consoles, hnil] at hconsoles
  rw [filter_emit hne isToConsole_deliver, ← consoles, hconsoles]
  by_cases hreached : level ≤ r.level
  · have hpasses : ¬(r.level ≤ Level.unset ∨ r.level < l.effectiveLevel) :=
      not_or.mpr ⟨not_le.mpr (lt_of_lt_of_le hlevel hreached),
        not_lt.mpr (le_trans heffective hreached)⟩
    rw [if_neg hpasses, if_pos hreached, List.filter_singleton, Handler.level,
      decide_eq_true hreached]
    rfl
  · rw [if_neg hreached, List.filter_singleton, Handler.level, decide_eq_false hreached]
    exact ite_self []

theorem filter_isToFile_emit {path : Text} (hfiles : l.files = logHandlers (some path))
    (heffective : Level.unset < l.effectiveLevel) :
    (l.emit stamp r).filter Delivery.isToFile =
      if l.effectiveLevel ≤ r.level then [.toFile path (r.fileLine stamp)] else [] := by
  have hne : l.handlers ≠ [] := by
    intro hnil
    simp [files, hnil, logHandlers] at hfiles
  rw [filter_emit hne isToFile_deliver, ← files, hfiles]
  by_cases hreached : l.effectiveLevel ≤ r.level
  · have hpositive : Level.unset < r.level := lt_of_lt_of_le heffective hreached
    have hpasses : ¬(r.level ≤ Level.unset ∨ r.level < l.effectiveLevel) :=
      not_or.mpr ⟨not_le.mpr hpositive, not_lt.mpr hreached⟩
    rw [if_neg hpasses, if_pos hreached, logHandlers, Option.map_some, Option.toList_some,
      List.filter_singleton, Handler.level, decide_eq_true (le_of_lt hpositive)]
    rfl
  · rw [if_neg hreached, if_pos (Or.inr (not_le.mp hreached))]

end Emit

/-! ## The records after many initialisations -/

/-- However often a logger is initialised, it has one console handler and at most one file
handler, with the first log file that was given, and passes no record on.  A record is
shown once if it has the level of the last initialisation, and not at all otherwise. -/
theorem initialiseAll_shows (hl : l.handlers = []) (hcalls : ∀ c ∈ calls, c.request.IsUsual)
    (hfirst : calls.head? = some first) (hlast : calls.getLast? = some last)
    (hlevel : last.request.level = .ok level) :
    (l.initialiseAll calls).consoles = [.console level first.shownInStyle] ∧
      (l.initialiseAll calls).files = logHandlers (calls.findSome? Initialisation.logFile?) ∧
      (l.initialiseAll calls).propagate = false ∧
      ∀ stamp r, ((l.initialiseAll calls).emit stamp r).filter Delivery.isToConsole =
        if level ≤ r.level then [.toConsole (r.consoleLine first.shownInStyle)] else [] := by
  have hconsoles : l.consoles = [] := by rw [consoles, hl, List.filter_nil]
  have hfiles : l.files = [] := by rw [files, hl, List.filter_nil]
  have hshown := consoles_initialiseAll hconsoles hcalls hfirst hlast hlevel
  have hdebug := (hcalls last (List.mem_of_getLast? hlast)).debug_le hlevel
  have hpositive : Level.unset < level := lt_of_lt_of_le (by decide) hdebug
  have heffective : (l.initialiseAll calls).effectiveLevel ≤ level := by
    rw [effectiveLevel_initialiseAll hlast hlevel hdebug]
    split_ifs
    · exact hdebug
    · exact le_refl level
  refine ⟨hshown, files_initialiseAll hfiles hcalls, propagate_initialiseAll hlast hlevel l, ?_⟩
  intro stamp r
  exact filter_isToConsole_emit hshown hpositive heffective

/-- Three initialisations, the second and the third with a log file each. -/
def reopened : List Initialisation :=
  [⟨true, .name "WARNING".toList, none⟩, ⟨false, .number 15, some "first.log".toList⟩,
    ⟨false, .name "INFO".toList, some "second.log".toList⟩]

theorem isUsual_reopened : ∀ c ∈ reopened, c.request.IsUsual := by
  simp only [reopened, List.forall_mem_cons]
  exact ⟨⟨30, rfl, by decide⟩, ⟨15, rfl, by decide⟩, ⟨20, rfl, by decide⟩, by simp⟩

theorem initialiseAll_shows_reopened :
    fresh.handlers = [] ∧ (∀ c ∈ reopened, c.request.IsUsual) ∧
      (fresh.initialiseAll reopened).consoles = [.console Level.info true] ∧
      (fresh.initialiseAll reopened).files = [.file "first.log".toList Level.unset] ∧
      (fresh.initialiseAll reopened).propagate = false ∧
      ∀ stamp r, ((fresh.initialiseAll reopened).emit stamp r).filter Delivery.isToConsole =
        if Level.info ≤ r.level then [.toConsole (r.consoleLine true)] else [] :=
  ⟨rfl, isUsual_reopened, initialiseAll_shows rfl isUsual_reopened rfl rfl rfl⟩

/-- Once a log file was given, a record from debug on is recorded, once, exactly if the last
initialisation gave a log file again or asked for a level that the record has. -/
theorem initialiseAll_records (hl : l.files = []) (hcalls : ∀ c ∈ calls, c.request.IsUsual)
    {path : Text} (hpath : calls.findSome? Initialisation.logFile? = some path)
    (hlast : calls.getLast? = some last) (hlevel : last.request.level = .ok level)
    (stamp : Text) (r : Record) :
    ((l.initialiseAll calls).emit stamp r).filter Delivery.isToFile =
      if Level.debug ≤ r.level ∧ (last.logFile?.isSome ∨ level ≤ r.level) then
        [.toFile path (r.fileLine stamp)]
      else [] := by
  have hfiles := files_initialiseAll hl hcalls
  rw [hpath] at hfiles
  have hdebug := (hcalls last (List.mem_of_getLast? hlast)).debug_le hlevel
  have heffective := effectiveLevel_initialiseAll hlast hlevel hdebug l
  have hpositive : Level.unset < (l.initialiseAll calls).effectiveLevel := by
    rw [heffective]
    split_ifs
    · decide
    · exact lt_of_lt_of_le (by decide) hdebug
  rw [filter_isToFile_emit hfiles hpositive, heffective]
  by_cases hgiven : last.logFile?.isSome = true
  · simp [hgiven]
  · have hiff : Level.debug ≤ r.level ∧ (last.logFile?.isSome = true ∨ level ≤ r.level) ↔
        level ≤ r.level := by
      simp only [hgiven, Bool.false_eq_true, false_or, and_iff_right_iff_imp]
      exact le_trans hdebug
    rw [if_neg hgiven, if_congr hiff rfl rfl]

/-- A log file, and a second initialisation at the same level that gives none. -/
def withdrawn : List Initialisation :=
  [⟨false, .name "ERROR".toList, some "tokenline.log".toList⟩, ⟨false, .name "ERROR".toList, none⟩]

theorem isUsual_withdrawn : ∀ c ∈ withdrawn, c.request.IsUsual := by
  simp only [withdrawn, List.forall_mem_cons]
  exact ⟨⟨40, rfl, by decide⟩, ⟨40, rfl, by decide⟩, by simp⟩

theorem initialiseAll_records_withdrawn :
    fresh.files = [] ∧ (∀ c ∈ withdrawn, c.request.IsUsual) ∧
      withdrawn.findSome? Initialisation.logFile? = some "tokenline.log".toList ∧
      ∀ stamp r, ((fresh.initialiseAll withdrawn).emit stamp r).filter Delivery.isToFile =
        if Level.debug ≤ r.level ∧ Level.error ≤ r.level then
          [.toFile "tokenline.log".toList (r.fileLine stamp)]
        else [] := by
  have hfiles : fresh.files = [] := rfl
  refine ⟨hfiles, isUsual_withdrawn, rfl, fun stamp r => ?_⟩
  have hrecorded := initialiseAll_records hfiles isUsual_withdrawn rfl rfl rfl stamp r
  refine hrecorded.trans (if_congr (and_congr_right fun _ => ?_) rfl rfl)
  exact or_iff_right Bool.false_ne_true

/-- The second initialisation closes the log file to a record that it let through before. -/
theorem exists_record_not_recorded :
    (∀ c ∈ withdrawn, c.request.IsUsual) ∧ (∃ c ∈ withdrawn, c.logFile?.isSome) ∧
      ∃ r : Record, Level.debug ≤ r.level ∧
        (∀ stamp, (fresh.initialiseAll (withdrawn.take 1)).emit stamp r =
          [.toFile "tokenline.log".toList (r.fileLine stamp)]) ∧
        ∀ stamp, (fresh.initialiseAll withdrawn).emit stamp r = [] := by
  refine ⟨isUsual_withdrawn, ⟨_, List.mem_cons_self, rfl⟩,
    ⟨Level.debug, programLogger, "resolved heal".toList⟩, by decide, ?_, ?_⟩
  · intro stamp
    rfl
  · intro stamp
    rfl

end Logger

end AliasConsole
