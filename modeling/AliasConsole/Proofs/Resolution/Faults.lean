import AliasConsole.Completion.Basic
import AliasConsole.Proofs.Evaluation

/-!
# Where faults come from

Resolving and completing read candidates one after another and stop at the first
reading that fails.  They have no faults of their own: if all candidates are
made to fail by one and the same fault, this fault comes out wherever any fault
came out before, and nothing else changes.  A position or a token that is not
there would keep its own fault, so in a well-formed registry none is ever asked
for.
-/

namespace AliasConsole

variable {W α β : Type} {fault : Fault}

/-- The reading, with the given fault in place of any fault of its own. -/
def Reads.failingAs (fault : Fault) (x : Reads W α) : Reads W α := fun w =>
  match x w with
  | .ok a w' => .ok a w'
  | .error _ w' => .error fault w'

def Candidates.failingAs (fault : Fault) : Candidates W → Candidates W
  | fixed groups => fixed groups
  | live read => live (Reads.failingAs fault read)

def Command.failingAs (fault : Fault) (c : Command W) : Command W :=
  { c with slots := c.slots.map (Candidates.failingAs fault) }

/-- The registry whose candidates fail by the given fault if they fail at all. -/
def Registry.failingAs (fault : Fault) (r : Registry W) : Registry W :=
  { r with commands := r.commands.map (Command.failingAs fault) }

namespace Reads

theorem failingAs_of_ok {x : Reads W α} {w w' : W} {a : α} (h : x w = .ok a w') :
    failingAs fault x w = .ok a w' := by
  rw [failingAs, h]

theorem failingAs_of_error {x : Reads W α} {own : Fault} {w w' : W} (h : x w = .error own w') :
    failingAs fault x w = .error fault w' := by
  rw [failingAs, h]

theorem failingAs_bind (x : Reads W α) (f : α → Reads W β) :
    failingAs fault (x >>= f) = failingAs fault x >>= fun a => failingAs fault (f a) := by
  funext w
  cases h : x w with
  | ok a w' =>
      rw [bind_of_ok (failingAs_of_ok h), failingAs, failingAs, bind_of_ok h]
  | error own w' =>
      rw [failingAs_of_error (bind_of_error h), bind_of_error (failingAs_of_error h)]

/-- Changing the fault that comes out changes the fault that is put in its place. -/
theorem failingAs_tryCatch_throw (change : Fault → Fault) (x : Reads W α) :
    tryCatch (failingAs fault x) (fun own => throw (change own)) =
      failingAs (change fault) (tryCatch x fun own => throw (change own)) := by
  funext w
  cases h : x w with
  | ok a w' =>
      rw [tryCatch_of_ok (failingAs_of_ok h), failingAs_of_ok (tryCatch_of_ok h)]
  | error own w' =>
      rw [tryCatch_of_error (failingAs_of_error h), failingAs, tryCatch_of_error h]
      rfl

end Reads

theorem Candidates.groups_failingAs (slot : Candidates W) :
    (slot.failingAs fault).groups = Reads.failingAs fault slot.groups := by
  cases slot <;> rfl

namespace Command

variable {c : Command W} {tokens : List Text}

theorem groupsAt_failingAs {position : ℕ} (h : position < c.slots.length) :
    (c.failingAs fault).groupsAt position =
      Reads.failingAs fault (c.groupsAt position) := by
  have hslot : c.slots[position]? = some c.slots[position] := List.getElem?_eq_getElem h
  have hmarked : (c.failingAs fault).slots[position]? =
      some (c.slots[position].failingAs fault) := by
    rw [failingAs, List.getElem?_map, hslot, Option.map_some]
  rw [groupsAt_of_getElem? hmarked, groupsAt_of_getElem? hslot, Candidates.groups_failingAs]

theorem acceptsFrom_failingAs {count position : ℕ} (hslots : position + count ≤ c.slots.length)
    (htokens : position + count ≤ tokens.length) :
    (c.failingAs fault).acceptsFrom tokens count position =
      Reads.failingAs fault (c.acceptsFrom tokens count position) := by
  induction count generalizing position with
  | zero => rfl
  | succ count ih =>
      have htoken : tokens[position]? = some (tokens.get ⟨position, by omega⟩) :=
        List.getElem?_eq_getElem (by omega)
      have hrest := @ih (position + 1) (by omega) (by omega)
      rw [acceptsFrom, acceptsFrom, groupsAt_failingAs (by omega), Reads.failingAs_bind, htoken]
      congr 1
      funext groups
      dsimp only
      split_ifs
      · exact hrest
      · rfl

theorem accepts_failingAs (h : c.fixed ≤ c.slots.length) :
    (c.failingAs fault).accepts tokens = Reads.failingAs fault (c.accepts tokens) := by
  have hfixed : (c.failingAs fault).fixed = c.fixed := rfl
  rw [accepts, accepts, hfixed]
  split_ifs with hlength
  · rfl
  · exact acceptsFrom_failingAs (by omega) (by omega)

end Command

namespace Registry

variable {r : Registry W}

theorem resolveExactFrom_failingAs {commands : List (Command W)}
    (h : ∀ c ∈ commands, c.fixed ≤ c.slots.length) (tokens : List Text) (index : ℕ) :
    resolveExactFrom tokens index (commands.map (Command.failingAs fault)) =
      Reads.failingAs fault (resolveExactFrom tokens index commands) := by
  induction commands generalizing index with
  | nil => rfl
  | cons c rest ih =>
      have hrest := ih (fun d hd => h d (List.mem_cons_of_mem c hd)) (index + 1)
      rw [List.map_cons, resolveExactFrom, resolveExactFrom,
        Command.accepts_failingAs (h c List.mem_cons_self), Reads.failingAs_bind]
      congr 1
      funext accepted
      cases accepted with
      | true => rfl
      | false => exact hrest

theorem WellFormed.resolveExact_failingAs (h : r.WellFormed) (tokens : List Text) :
    (r.failingAs fault).resolveExact tokens =
      Reads.failingAs fault.duringMatch (r.resolveExact tokens) := by
  rw [resolveExact, resolveExact, ← Reads.failingAs_tryCatch_throw]
  change tryCatch (resolveExactFrom tokens 0 (r.commands.map _)) _ = _
  rw [resolveExactFrom_failingAs h]

end Registry

section Completion

variable {r : Registry W} {limited : Bool} {position : ℕ} {entries : List (Entry W)}

/-- The living commands, with the given fault for any fault of their candidates. -/
def entriesFailingAs (fault : Fault) (entries : List (Entry W)) : List (Entry W) :=
  entries.map fun e => (e.1.failingAs fault, e.2)

theorem Command.reach_failingAs (limited : Bool) (c : Command W) :
    (c.failingAs fault).reach limited = c.reach limited := by
  cases limited with
  | true => rfl
  | false => exact List.length_map _

theorem evaluateAt_failingAs (h : ∀ e ∈ entries, e.1.reach limited ≤ e.1.slots.length) :
    evaluateAt limited position (entriesFailingAs fault entries) =
      Reads.failingAs fault (evaluateAt limited position entries) := by
  induction entries with
  | nil => rfl
  | cons e rest ih =>
      obtain ⟨c, index⟩ := e
      have hc : c.reach limited ≤ c.slots.length := h (c, index) List.mem_cons_self
      have hrest := ih fun e he => h e (List.mem_cons_of_mem _ he)
      rw [entriesFailingAs, List.map_cons, evaluateAt, evaluateAt, Command.reach_failingAs]
      split_ifs with hreach
      · rw [Command.groupsAt_failingAs (Nat.lt_of_lt_of_le hreach hc), Reads.failingAs_bind]
        congr 1
        funext groups
        rw [Reads.failingAs_bind]
        exact congrArg (· >>= _) hrest
      · exact hrest

theorem filter_entriesFailingAs (keep : ℕ → Bool) :
    (entriesFailingAs fault entries).filter (fun e => keep e.2) =
      entriesFailingAs fault (entries.filter fun e => keep e.2) :=
  filter_map_command _ keep entries

theorem narrowFrom_failingAs (h : ∀ e ∈ entries, e.1.reach limited ≤ e.1.slots.length)
    (tokens : List Text) :
    narrowFrom limited position (entriesFailingAs fault entries) tokens =
      Reads.failingAs fault (narrowFrom limited position entries tokens) := by
  induction tokens generalizing position entries with
  | nil => rfl
  | cons token rest ih =>
      rw [narrowFrom, narrowFrom, evaluateAt_failingAs h, Reads.failingAs_bind]
      congr 1
      funext evaluated
      have hrest := @ih (position + 1)
        (entries.filter fun e => (Narrowing.of token evaluated).keeps e.2)
        fun e he => h e (List.mem_filter.mp he).1
      rw [← filter_entriesFailingAs] at hrest
      dsimp only
      rw [hrest, Reads.failingAs_bind]
      rfl

/-- Completing has no fault of its own. -/
theorem Registry.WellFormed.autocomplete_failingAs (h : r.WellFormed)
    (options : CompletionOptions) (line : Text) :
    autocomplete (r.failingAs fault) options line =
      Reads.failingAs fault (autocomplete r options line) := by
  have hentries : (r.failingAs fault).commands.zipIdx =
      entriesFailingAs fault r.commands.zipIdx := by
    rw [Registry.failingAs, entriesFailingAs, List.zipIdx_map]
    rfl
  have hreach : ∀ e ∈ r.commands.zipIdx,
      e.1.reach options.limitToFixed ≤ e.1.slots.length :=
    fun e he => h.reach_le (List.fst_mem_of_mem_zipIdx he) _
  rw [autocomplete, autocomplete, Reads.failingAs_bind, narrow, narrow, hentries,
    narrowFrom_failingAs hreach]
  rfl

end Completion

end AliasConsole
