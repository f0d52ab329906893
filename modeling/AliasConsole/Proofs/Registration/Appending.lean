import AliasConsole.Proofs.Registration
import AliasConsole.Proofs.Support

/-!
# What requests append

Whether a request is granted does not depend on the registry that it is made of.  A
request that is granted appends its own command or literal behind everything that is
there.  So a registry that takes up requests has their commands and their literals
behind its own, each in the order of the requests.
-/

namespace AliasConsole

variable {W : Type}

namespace Registration

/-- The command that a request is for, if its candidates are usable. -/
def command? : Registration W (Script W) → Option (Command W)
  | .aliases slots fixed callback =>
    match SlotArgument.coerceAll slots with
    | .ok candidates => some ⟨candidates, (fixed.getD candidates.length).toNat, callback⟩
    | .error _ => none
  | .literal _ _ => none

/-- The literal that a request is for. -/
def literal? : Registration W (Script W) → Option (Literal W)
  | .aliases _ _ _ => none
  | .literal text callback => some ⟨text, callback⟩

/-- Why a request is refused, if it is. -/
def refusal? (request : Registration W (Script W)) : Option Fault :=
  errorOf? (Registry.empty.register request)

end Registration

namespace Registry

/-- The registry with the commands and the literals of requests behind its own. -/
def appended (r : Registry W) (requests : List (Registration W (Script W))) : Registry W :=
  ⟨r.commands ++ requests.filterMap Registration.command?,
    r.literals ++ requests.filterMap Registration.literal?⟩

variable {r : Registry W} {request : Registration W (Script W)}

theorem appended_nil (r : Registry W) : r.appended [] = r := by
  simp only [appended, List.filterMap_nil, List.append_nil]

theorem appended_append (r : Registry W) (front back : List (Registration W (Script W))) :
    r.appended (front ++ back) = (r.appended front).appended back := by
  simp only [appended, List.filterMap_append, List.append_assoc]

/-- All registries grant a request, or all refuse it by the same fault. -/
theorem register_uniform (request : Registration W (Script W)) :
    (∀ r : Registry W, r.register request = .ok (r.appended [request])) ∨
      ∃ fault, ∀ r : Registry W, r.register request = .error fault := by
  cases request with
  | aliases slots fixed callback =>
      simp only [register, registerAliases]
      cases hslots : SlotArgument.coerceAll slots with
      | error fault => exact Or.inr ⟨fault, fun _ => rfl⟩
      | ok candidates =>
          let count := fixed.getD candidates.length
          by_cases hcount : (count < 0 || candidates.length < count) = true
          · exact Or.inr ⟨badFixed count candidates.length, fun _ => if_pos hcount⟩
          · left
            intro r
            refine (if_neg hcount).trans ?_
            simp [appended, Registration.command?, Registration.literal?, hslots]
  | literal text callback =>
      simp only [register, registerLiteral]
      by_cases hblank : text.all isBlank = true
      · exact Or.inr ⟨blankLiteral, fun _ => if_pos hblank⟩
      · left
        intro r
        rw [if_neg hblank]
        simp [appended, Registration.command?, Registration.literal?]

theorem register_of_granted (h : request.refusal? = none) (r : Registry W) :
    r.register request = .ok (r.appended [request]) := by
  rcases register_uniform request with hgranted | ⟨fault, hrefused⟩
  · exact hgranted r
  · rw [Registration.refusal?, hrefused] at h
    cases h

theorem register_of_refused {fault : Fault} (h : request.refusal? = some fault)
    (r : Registry W) : r.register request = .error fault := by
  rw [Registration.refusal?, errorOf?_eq_some_iff] at h
  rcases register_uniform request with hgranted | ⟨own, hrefused⟩
  · rw [hgranted] at h
    cases h
  · rw [hrefused, Except.error.injEq] at h
    rw [hrefused, h]

theorem foldlM_register_of_granted {requests : List (Registration W (Script W))}
    (h : ∀ q ∈ requests, q.refusal? = none) (r : Registry W) :
    requests.foldlM register r = .ok (r.appended requests) := by
  induction requests generalizing r with
  | nil =>
      rw [appended_nil]
      rfl
  | cons request rest ih =>
      obtain ⟨hfirst, hothers⟩ := List.forall_mem_cons.mp h
      calc (request :: rest).foldlM register r
          = rest.foldlM register (r.appended [request]) := by
            rw [List.foldlM_cons, register_of_granted hfirst]
            rfl
        _ = .ok (r.appended ([request] ++ rest)) := by rw [ih hothers, appended_append]

theorem offer_eq (r : Registry W) (request : Registration W (Script W)) :
    r.offer request = r.appended ([request].filter fun q => q.refusal?.isNone) := by
  rw [offer]
  cases h : request.refusal? with
  | none =>
      rw [register_of_granted h, List.filter_singleton, h]
      rfl
  | some fault =>
      rw [register_of_refused h, List.filter_singleton, h]
      exact (appended_nil r).symm

/-- A registry that takes up requests has the granted ones behind its own entries. -/
theorem offerAll_eq (r : Registry W) (requests : List (Registration W (Script W))) :
    r.offerAll requests = r.appended (requests.filter fun q => q.refusal?.isNone) := by
  induction requests generalizing r with
  | nil => exact (appended_nil r).symm
  | cons request rest ih =>
      calc (r.offer request).offerAll rest
          = (r.offer request).appended (rest.filter fun q => q.refusal?.isNone) := ih _
        _ = r.appended (([request] ++ rest).filter fun q => q.refusal?.isNone) := by
            rw [offer_eq, ← appended_append, List.filter_append]

end Registry

end AliasConsole
