import AliasConsole.Proofs.Registration
import AliasConsole.Proofs.Session.Submission
import AliasConsole.Proofs.Value.Writing
import AliasConsole.Session.Keys

/-!
# Commands that behave

A command behaves if it answers with a text or fails without an interruption,
whatever it is told on the way, if what it prints does the same, and if the commands
that it registers behave and have candidates that never fail.  In a session whose
commands behave, a submitted line is answered or asks to leave, and the commands
still behave afterwards.
-/

namespace AliasConsole

variable {W : Type}

/-- The fault passes through every command, and it is no request to end the program. -/
def Fault.Interrupts (fault : Fault) : Prop := fault.kind.family = .departure

theorem Fault.not_interrupts_of_isDeparture {fault : Fault}
    (h : fault.kind.isDeparture = false) : ¬ fault.Interrupts := by
  intro hfamily
  rw [FaultKind.isDeparture, show fault.kind.family = .departure from hfamily] at h
  simp at h

theorem Fault.not_interrupts_of_isExit {fault : Fault} (h : fault.kind.isExit = true) :
    ¬ fault.Interrupts := by
  intro hfamily
  rw [FaultKind.isExit, show fault.kind.family = .departure from hfamily] at h
  cases h

theorem Fault.isExit_of_isDeparture {fault : Fault} (h : fault.kind.isDeparture = true)
    (hfault : ¬ fault.Interrupts) : fault.kind.isExit = true := by
  rw [FaultKind.isDeparture, Bool.or_eq_true, beq_iff_eq] at h
  exact h.resolve_right hfault

/-- The outcome is no interruption. -/
def IsUninterrupted {α : Type} (outcome : Except Fault α) : Prop :=
  ∀ fault, outcome = .error fault → ¬ fault.Interrupts

namespace Registration

variable {B : Type}

/-- The behaviour that a request brings along. -/
def behaviour : Registration W B → List Text → B
  | .aliases _ _ callback => callback
  | .literal _ callback => callback

/-- The candidates that a request brings along never fail. -/
def NeverFails : Registration W B → Prop
  | .aliases slots _ _ => ∀ slot, .candidates slot ∈ slots → AlwaysSucceeds slot.groups
  | .literal _ _ => True

end Registration

/-- The script ends with a text or with a fault other than an interruption, unless
it is told of an interruption, and registers only commands that do the same. -/
inductive Script.Behaves : Script W → Prop
  | reply (t : Text) : Behaves (.reply (.text t))
  | fail {fault : Fault} (hfault : ¬ fault.Interrupts) : Behaves (.fail fault)
  | world (change : W → W) {next : W → Script W} (hnext : ∀ w, Behaves (next w)) :
      Behaves (.world change next)
  | print {message : Value} {next : Script W}
      (hmessage : IsUninterrupted (Session.outputLines message)) (hnext : Behaves next) :
      Behaves (.print message next)
  | submit (line : Text) {next : Except Fault Result → Script W}
      (hnext : ∀ outcome, IsUninterrupted outcome → Behaves (next outcome)) :
      Behaves (.submit line next)
  | register {request : Registration W (Script W)} {next : Except Fault Unit → Script W}
      (hslots : request.NeverFails) (hbehaviour : ∀ tokens, Behaves (request.behaviour tokens))
      (hnext : ∀ outcome, IsUninterrupted outcome → Behaves (next outcome)) :
      Behaves (.register request next)
  | listing {next : Text → Script W} (hnext : ∀ t, Behaves (next t)) : Behaves (.listing next)

/-- No candidates fail and all commands behave. -/
structure Registry.Behaves (r : Registry W) : Prop where
  wellFormed : r.WellFormed
  neverFails : r.NeverFails
  commands : ∀ c ∈ r.commands, ∀ tokens, (c.callback tokens).Behaves
  literals : ∀ l ∈ r.literals, ∀ tokens, (l.callback tokens).Behaves

/-! ## Registering -/

theorem SlotArgument.eq_of_coerce {slot : SlotArgument W} {candidates : Candidates W}
    (h : slot.coerce = .ok candidates) :
    slot = .candidates candidates ∨ ∃ groups, candidates = .fixed groups := by
  rw [coerce.eq_def] at h
  split at h
  · rw [Except.ok.inj h]
    exact Or.inl rfl
  · exact Or.inr ⟨_, (Except.ok.inj h).symm⟩
  · split at h
    · exact Or.inr ⟨_, (Except.ok.inj h).symm⟩
    · cases h
  · split at h
    · exact Or.inr ⟨_, (Except.ok.inj h).symm⟩
    · cases h
  · cases h

/-- What cannot be used is refused with its written form, or because it cannot be
written. -/
theorem SlotArgument.kind_of_coerce {slot : SlotArgument W} {fault : Fault}
    (h : slot.coerce = .error fault) : fault.kind.isDeparture = false := by
  have hrefused : ∀ v room, (refused v room).kind.isDeparture = false := by
    intro v room
    rw [refused]
    cases hwrite : v.write room with
    | ok words => rfl
    | error fault =>
        rcases Value.obstacle?_cases (Value.write_eq_error_iff.mp hwrite) with rfl | rfl <;> rfl
  rw [coerce.eq_def] at h
  split at h
  · cases h
  · cases h
  · split at h
    · cases h
    · rw [← Except.error.inj h]
      exact hrefused _ _
  · split at h
    · cases h
    · rw [← Except.error.inj h]
      exact hrefused _ _
  · rw [← Except.error.inj h]
    exact hrefused _ _

theorem SlotArgument.coerceAll_cons_of_ok {slot : SlotArgument W} {candidates : Candidates W}
    (h : slot.coerce = .ok candidates) (rest : List (SlotArgument W)) :
    coerceAll (slot :: rest) = (coerceAll rest).map (candidates :: ·) := by
  rw [coerceAll, h]
  cases coerceAll rest <;> rfl

theorem SlotArgument.coerceAll_cons_of_error {slot : SlotArgument W} {fault : Fault}
    (h : slot.coerce = .error fault) (rest : List (SlotArgument W)) :
    coerceAll (slot :: rest) = .error fault := by
  rw [coerceAll, h]
  rfl

theorem SlotArgument.eq_of_mem_coerceAll {slots : List (SlotArgument W)}
    {all : List (Candidates W)} (h : coerceAll slots = .ok all) {candidates : Candidates W}
    (hmem : candidates ∈ all) :
    .candidates candidates ∈ slots ∨ ∃ groups, candidates = .fixed groups := by
  induction slots generalizing all with
  | nil =>
      rw [← Except.ok.inj h] at hmem
      cases hmem
  | cons slot rest ih =>
      cases hslot : slot.coerce with
      | error fault =>
          rw [coerceAll_cons_of_error hslot] at h
          cases h
      | ok first =>
          rw [coerceAll_cons_of_ok hslot] at h
          cases hrest : coerceAll rest with
          | error fault =>
              rw [hrest] at h
              cases h
          | ok more =>
              rw [hrest] at h
              rw [← Except.ok.inj h] at hmem
              rcases List.mem_cons.mp hmem with rfl | hmore
              · rcases eq_of_coerce hslot with rfl | hfixed
                · exact Or.inl List.mem_cons_self
                · exact Or.inr hfixed
              · rcases ih hrest hmore with hmem | hfixed
                · exact Or.inl (List.mem_cons_of_mem slot hmem)
                · exact Or.inr hfixed

theorem SlotArgument.kind_of_coerceAll {slots : List (SlotArgument W)} {fault : Fault}
    (h : coerceAll slots = .error fault) : fault.kind.isDeparture = false := by
  induction slots with
  | nil => cases h
  | cons slot rest ih =>
      cases hslot : slot.coerce with
      | error own =>
          rw [coerceAll_cons_of_error hslot] at h
          rw [← Except.error.inj h]
          exact kind_of_coerce hslot
      | ok first =>
          rw [coerceAll_cons_of_ok hslot] at h
          cases hrest : coerceAll rest with
          | ok more =>
              rw [hrest] at h
              cases h
          | error own =>
              rw [hrest] at h
              obtain rfl := Except.error.inj h
              exact ih hrest

namespace Registry

variable {r r' : Registry W} {request : Registration W (Script W)}

theorem kind_of_register {fault : Fault} (h : r.register request = .error fault) :
    fault.kind.isDeparture = false := by
  have hanswer := answers_register r request
  rw [h] at hanswer
  cases hanswer with
  | unusable hslots => exact SlotArgument.kind_of_coerceAll hslots
  | badCount => rfl
  | blank => rfl

theorem Behaves.of_register (hr : r.Behaves) (hslots : request.NeverFails)
    (hbehaviour : ∀ tokens, (request.behaviour tokens).Behaves)
    (h : r.register request = .ok r') : r'.Behaves := by
  have hformed := hr.wellFormed.of_register h
  have hanswer := answers_register r request
  rw [h] at hanswer
  cases hanswer with
  | literal htext =>
      refine ⟨hformed, hr.neverFails, hr.commands, ?_⟩
      exact List.forall_mem_append.mpr ⟨hr.literals, List.forall_mem_singleton.mpr hbehaviour⟩
  | command hcoerce hcount hle =>
      refine ⟨hformed, ?_, ?_, hr.literals⟩
      · refine List.forall_mem_append.mpr ⟨hr.neverFails, ?_⟩
        intro c hc slot hslot
        rw [List.mem_singleton.mp hc] at hslot
        rcases SlotArgument.eq_of_mem_coerceAll hcoerce hslot with hmem | ⟨groups, rfl⟩
        · exact hslots slot hmem
        · exact AlwaysSucceeds.pure groups
      · exact List.forall_mem_append.mpr ⟨hr.commands, List.forall_mem_singleton.mpr hbehaviour⟩

end Registry

theorem Registry.NeverFails.resolve {r : Registry W} (hfail : r.NeverFails)
    (hformed : r.WellFormed) (tokens : List Text) (line : Text) :
    AlwaysSucceeds (r.resolve tokens line) := by
  refine (hfail.resolveExact hformed tokens).bind fun found => ?_
  cases found with
  | none => exact AlwaysSucceeds.pure _
  | some index => exact AlwaysSucceeds.pure _

/-! ## Submitting -/

namespace Session

/-- From a session with the property the action leads to one with the property,
with an answer or a fault as described. -/
def Ensures {α : Type} (I : Session W → Prop) (answer : α → Prop) (fails : Fault → Prop)
    (action : Action W α) : Prop :=
  ∀ s, I s → match action s with
    | .ok a s' => I s' ∧ answer a
    | .error fault s' => I s' ∧ fails fault

section Ensures

variable {α β : Type} {I : Session W → Prop} {P P' : α → Prop} {Q : β → Prop}
  {E E' : Fault → Prop} {x : Action W α} {f : α → Action W β} {s s' : Session W}

theorem Ensures.of_ok (hx : Ensures I P E x) (hs : I s) {a : α} (h : x s = .ok a s') :
    I s' ∧ P a := by
  have hafter := hx s hs
  rwa [h] at hafter

theorem Ensures.of_error (hx : Ensures I P E x) (hs : I s) {fault : Fault}
    (h : x s = .error fault s') : I s' ∧ E fault := by
  have hafter := hx s hs
  rwa [h] at hafter

theorem Ensures.pure {a : α} (h : P a) : Ensures I P E (pure a : Action W α) :=
  fun _ hs => ⟨hs, h⟩

theorem Ensures.throw {fault : Fault} (h : E fault) : Ensures I P E (throw fault : Action W α) :=
  fun _ hs => ⟨hs, h⟩

theorem Ensures.bind (hx : Ensures I P E x) (hf : ∀ a, P a → Ensures I Q E (f a)) :
    Ensures I Q E (x >>= f) := by
  intro s hs
  cases h : x s with
  | ok a s' =>
      obtain ⟨hs', ha⟩ := hx.of_ok hs h
      rw [bind_of_ok h]
      exact hf a ha s' hs'
  | error fault s' =>
      rw [bind_of_error h]
      exact hx.of_error hs h

theorem Ensures.imp (hx : Ensures I P E x) (hP : ∀ a, P a → P' a)
    (hE : ∀ fault, E fault → E' fault) : Ensures I P' E' x := by
  intro s hs
  cases h : x s with
  | ok a s' =>
      obtain ⟨hs', ha⟩ := hx.of_ok hs h
      exact ⟨hs', hP a ha⟩
  | error fault s' =>
      obtain ⟨hs', hfault⟩ := hx.of_error hs h
      exact ⟨hs', hE fault hfault⟩

/-- What has been made an answer fails no more. -/
theorem Ensures.attempt (hx : Ensures I P E x) :
    Ensures I
      (fun outcome : Except Fault α =>
        (∀ a, outcome = .ok a → P a) ∧ ∀ fault, outcome = .error fault → E fault)
      E' (attempt x) := by
  intro s hs
  cases h : x s with
  | ok a s' =>
      obtain ⟨hs', ha⟩ := hx.of_ok hs h
      rw [attempt_of_ok h]
      exact ⟨hs', fun b hb => Except.ok.inj hb ▸ ha, nofun⟩
  | error fault s' =>
      obtain ⟨hs', hfault⟩ := hx.of_error hs h
      rw [attempt_of_error h]
      exact ⟨hs', nofun, fun own hown => Except.error.inj hown ▸ hfault⟩

end Ensures

/-- What cannot be printed is no text, or an object that cannot be cut into lines. -/
theorem cases_of_outputLines {message : Value} {fault : Fault}
    (h : outputLines message = .error fault) :
    fault = .notText ∨ ∃ object, message = .foreign object ∧ object.lines = .error fault := by
  rw [outputLines.eq_def] at h
  split at h
  · cases h
  · rename_i object
    cases hlines : object.lines with
    | ok lines =>
        rw [hlines] at h
        cases lines <;> cases h
    | error own =>
        rw [hlines] at h
        obtain rfl := Except.error.inj h
        exact Or.inr ⟨object, rfl, hlines⟩
  · split_ifs at h
    exact Or.inl (Except.error.inj h).symm

/-- Exactly the faults that no command may swallow have no answer. -/
theorem answerTo_eq_none_iff {line : Text} {fault : Fault} :
    answerTo line fault = none ↔ fault.kind.isDeparture = true := by
  rw [answerTo]
  cases hfamily : fault.kind.family <;>
    simp [FaultKind.isLookup, FaultKind.isValue, FaultKind.isDeparture, FaultKind.isExit, hfamily]

/-- The commands of the session behave. -/
def Behaves (s : Session W) : Prop := s.registry.Behaves

variable {nested : Text → Action W Result} {script : Script W}

theorem ensures_print {message : Value} (hmessage : IsUninterrupted (outputLines message)) :
    Ensures (W := W) Behaves (fun _ => True) (fun fault => ¬ fault.Interrupts)
      (print message) := by
  intro s hs
  cases h : outputLines message with
  | ok lines =>
      rw [print_of_ok h]
      exact ⟨hs, trivial⟩
  | error fault =>
      rw [print_of_error h]
      exact ⟨hs, hmessage fault h⟩

theorem ensures_print_text {E : Fault → Prop} (t : Text) :
    Ensures (W := W) Behaves (fun _ => True) E (print (.text t)) :=
  fun _ hs => ⟨hs, trivial⟩

theorem ensures_register {request : Registration W (Script W)} (hslots : request.NeverFails)
    (hbehaviour : ∀ tokens, (request.behaviour tokens).Behaves) :
    Ensures Behaves (fun _ => True) (fun fault => ¬ fault.Interrupts)
      (register request) := by
  intro s hs
  cases h : s.registry.register request with
  | error fault =>
      rw [register_of_error h]
      exact ⟨hs, Fault.not_interrupts_of_isDeparture (Registry.kind_of_register h)⟩
  | ok r =>
      have hr : r.Behaves := Registry.Behaves.of_register hs hslots hbehaviour h
      rw [register_of_ok h]
      split_ifs
      · exact ⟨hr, trivial⟩
      · exact ⟨hr, trivial⟩

/-- A script that behaves gives a text or fails without an interruption, and the
commands still behave. -/
theorem ensures_perform
    (hnested : ∀ line, Ensures Behaves (fun _ => True) (fun fault => ¬ fault.Interrupts)
      (nested line))
    (hscript : script.Behaves) :
    Ensures Behaves (fun message => ∃ t, message = .text t)
      (fun fault => ¬ fault.Interrupts) (perform nested script) := by
  induction hscript with
  | reply t => exact .pure ⟨t, rfl⟩
  | fail hfault => exact .throw hfault
  | world change hnext ih =>
      intro s hs
      rw [perform_world]
      exact ih s.world { s with world := change s.world } hs
  | print hmessage hnext ih =>
      rw [perform]
      exact (ensures_print hmessage).bind fun _ _ => ih
  | submit line hnext ih =>
      rw [perform]
      exact (hnested line).attempt.bind fun outcome houtcome => ih outcome houtcome.2
  | register hslots hbehaviour hnext ihbehaviour ih =>
      rw [perform]
      have hregister := ensures_register hslots hbehaviour
      exact hregister.attempt.bind fun outcome houtcome => ih outcome houtcome.2
  | listing hnext ih =>
      intro s hs
      rw [perform]
      exact ih s.registry.listing s hs

/-- What a command that behaves is answered with can be printed, and the only fault
that is not answered is a request to leave by an exit. -/
theorem ensures_execute
    (hscript : Ensures Behaves (fun message => ∃ t, message = .text t)
      (fun fault => ¬ fault.Interrupts) (perform nested script)) (line : Text) :
    Ensures Behaves (fun result => result.status ≠ .empty ∧ ∃ t, result.message = .text t)
      (fun fault => fault.kind.isExit = true) (execute nested line script) := by
  intro s hs
  cases hperform : perform nested script s with
  | ok message after =>
      obtain ⟨hafter, hmessage⟩ := hscript.of_ok hs hperform
      rw [execute_of_ok hperform]
      exact ⟨hafter, nofun, hmessage⟩
  | error fault after =>
      obtain ⟨hafter, hfault⟩ := hscript.of_error hs hperform
      rw [execute_of_error line hperform]
      cases hanswer : answerTo line fault with
      | some answer => exact ⟨hafter, nofun, _, rfl⟩
      | none =>
          exact ⟨hafter, Fault.isExit_of_isDeparture (answerTo_eq_none_iff.mp hanswer) hfault⟩

theorem scriptOf_behaves {r : Registry W} (hr : r.Behaves) (selection : Selection)
    (tokens : List Text) : (scriptOf r selection tokens).Behaves := by
  cases hcallback : r.callback? selection with
  | none =>
      rw [scriptOf, hcallback]
      refine .fail fun hinterrupts => ?_
      cases hinterrupts
  | some callback =>
      rw [scriptOf_of_callback? hcallback]
      cases selection with
      | aliases index =>
          obtain ⟨c, hc, rfl⟩ := Option.map_eq_some_iff.mp hcallback
          exact hr.commands c (List.mem_of_getElem? hc) tokens
      | literal index =>
          obtain ⟨l, hl, rfl⟩ := Option.map_eq_some_iff.mp hcallback
          exact hr.literals l (List.mem_of_getElem? hl) tokens

/-- If the lines that commands submit are not interrupted, a line is answered or
asks to leave by an exit; only the empty line is answered as an empty one. -/
theorem ensures_submitWith
    (hnested : ∀ line, Ensures Behaves (fun _ => True) (fun fault => ¬ fault.Interrupts)
      (nested line)) (line : Text) :
    Ensures Behaves (fun result => result.status = .empty ↔ line = [])
      (fun fault => fault.kind.isExit = true) (submitWith nested line) := by
  intro s hs
  by_cases hline : line = []
  · subst hline
    exact ⟨hs, iff_of_true rfl rfl⟩
  · obtain ⟨found, w, hresolve⟩ :=
      hs.neverFails.resolve hs.wellFormed (tokenize line) line s.world
    rw [submitWith_of_ne_nil hline, hresolve]
    cases found with
    | none => exact ⟨hs, iff_of_false nofun hline⟩
    | some selection =>
        have hscript := ensures_perform hnested (scriptOf_behaves hs selection (tokenize line))
        refine (ensures_execute hscript line).bind ?_ (dispatched line selection w s) hs
        rintro result ⟨hstatus, t, hmessage⟩
        rw [hmessage]
        exact (ensures_print_text t).bind fun _ _ => .pure (iff_of_false hstatus hline)

theorem ensures_submitAt (depth : ℕ) (line : Text) :
    Ensures (W := W) Behaves (fun _ => True) (fun fault => ¬ fault.Interrupts)
      (submitAt depth line) := by
  induction depth generalizing line with
  | zero => exact .throw nofun
  | succ depth ih =>
      exact (ensures_submitWith ih line).imp (fun _ _ => trivial)
        fun fault => Fault.not_interrupts_of_isExit

theorem submitTyped_cases {s : Session W} (hs : s.Behaves) (depth : ℕ) :
    (∃ result s', submitTyped depth s = .ok result s' ∧ s'.Behaves ∧
        (result.status = .empty ↔ s.typed = [])) ∨
      ∃ fault s', submitTyped depth s = .error fault s' ∧ fault.kind.isExit = true := by
  have hsubmit := ensures_submitWith (ensures_submitAt (W := W) depth) s.typed
  rw [submitTyped, get_bind]
  cases h : submit depth s.typed s with
  | ok result s' =>
      obtain ⟨hs', hresult⟩ := hsubmit.of_ok hs h
      rw [bind_of_ok h]
      exact Or.inl ⟨result, { s' with typed := [] }, rfl, hs', hresult⟩
  | error fault s' =>
      rw [bind_of_error h]
      exact Or.inr ⟨fault, s', rfl, (hsubmit.of_error hs h).2⟩

end Session

end AliasConsole
