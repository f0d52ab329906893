import AliasConsole.Proofs.Registration
import AliasConsole.Proofs.Resolution.Faults
import AliasConsole.Proofs.Session.Submission

/-!
# Requests one after the other

Whatever is requested of an empty registry, in whatever order and however often
a request is refused, the registry stays sound and has one entry for every
request that was granted.  A refusal leaves no trace, in a session as little as
in the registry, and nothing that is there is ever moved or changed.  Since the
registry is sound, resolving and completing ask for no position and no token
that is not there.
-/

namespace AliasConsole

namespace Registry

variable {W : Type} {r r' : Registry W}

/-- Every command has a position for each of its fixed tokens, and every literal
has a character that is not blank. -/
structure IsSound (r : Registry W) : Prop where
  wellFormed : r.WellFormed
  exists_not_blank : ∀ l ∈ r.literals, ∃ c ∈ l.text, isBlank c = false

/-- The number of requests that are granted, one after the other. -/
def grants (r : Registry W) : List (Registration W (Script W)) → ℕ
  | [] => 0
  | request :: rest => (if (r.register request).isOk then 1 else 0) + (r.offer request).grants rest

variable {request : Registration W (Script W)}

theorem offer_of_ok (h : r.register request = .ok r') : r.offer request = r' := by
  rw [offer, h]

theorem offer_of_error {fault : Fault} (h : r.register request = .error fault) :
    r.offer request = r := by
  rw [offer, h]

theorem IsSound.offer (hr : r.IsSound) (request : Registration W (Script W)) :
    (r.offer request).IsSound := by
  refine ⟨hr.wellFormed.offer request, ?_⟩
  cases h : r.register request with
  | error fault =>
      rw [offer_of_error h]
      exact hr.exists_not_blank
  | ok next =>
      rw [offer_of_ok h]
      rcases register_cases h with ⟨c, -, rfl⟩ | ⟨l, hl, rfl⟩
      · exact hr.exists_not_blank
      · refine List.forall_mem_append.mpr ⟨hr.exists_not_blank, ?_⟩
        simpa using hl

theorem IsSound.offerAll (hr : r.IsSound) (requests : List (Registration W (Script W))) :
    (r.offerAll requests).IsSound := by
  induction requests generalizing r with
  | nil => exact hr
  | cons request rest ih => exact ih (hr.offer request)

theorem isSound_empty : (empty : Registry W).IsSound :=
  ⟨by simp [WellFormed, empty], by simp [empty]⟩

theorem size_offer (r : Registry W) (request : Registration W (Script W)) :
    (r.offer request).size = r.size + if (r.register request).isOk then 1 else 0 := by
  cases h : r.register request with
  | error fault =>
      rw [offer_of_error h]
      rfl
  | ok next =>
      rw [offer_of_ok h]
      have hone : (if (.ok next : Except Fault (Registry W)).isOk then 1 else 0) = 1 := rfl
      rw [hone]
      rcases register_cases h with ⟨c, -, rfl⟩ | ⟨l, -, rfl⟩
      · simp only [size, List.length_append, List.length_singleton]
        omega
      · simp only [size, List.length_append, List.length_singleton]
        omega

theorem size_offerAll (r : Registry W) (requests : List (Registration W (Script W))) :
    (r.offerAll requests).size = r.size + r.grants requests := by
  induction requests generalizing r with
  | nil => rfl
  | cons request rest ih =>
      calc ((r.offer request).offerAll rest).size
          = (r.offer request).size + (r.offer request).grants rest := ih (r.offer request)
        _ = r.size + r.grants (request :: rest) := by rw [size_offer, grants, Nat.add_assoc]

end Registry

namespace Session

variable {W : Type}

/-- A session takes a request like its registry, and a refusal leaves the session
as it was. -/
theorem register_cases (request : Registration W (Script W)) (s : Session W) :
    (∃ fault, register request s = .error fault s ∧
        s.registry.register request = .error fault) ∨
      ∃ s', register request s = .ok () s' ∧ s.registry.register request = .ok s'.registry := by
  cases h : s.registry.register request with
  | error fault => exact Or.inl ⟨fault, register_of_error h, rfl⟩
  | ok r =>
      right
      rw [register_of_ok h]
      split_ifs
      · exact ⟨_, rfl, rfl⟩
      · exact ⟨_, rfl, rfl⟩

end Session

namespace Registry

/-- Any requests lead from the empty registry to a sound one, with one entry for
every request that was granted; a further request is answered as it should be
and a refusal changes nothing; further requests leave everything in its place;
and resolving and completing have no faults but those of the candidates. -/
theorem isSound_offerAll_empty {W : Type} (requests : List (Registration W (Script W))) :
    let r : Registry W := empty.offerAll requests
    r.IsSound ∧ r.size = (empty : Registry W).grants requests ∧
      (∀ request, r.Answers request (r.register request)) ∧
      (∀ request (s : Session W), s.registry = r →
        (∃ fault, Session.register request s = .error fault s ∧
            r.register request = .error fault) ∨
          ∃ s', Session.register request s = .ok () s' ∧
            r.register request = .ok s'.registry) ∧
      (∀ later, r.Extends (r.offerAll later)) ∧
      (∀ tokens fault, (r.failingAs fault).resolveExact tokens =
        Reads.failingAs fault.duringMatch (r.resolveExact tokens)) ∧
      ∀ options line fault, autocomplete (r.failingAs fault) options line =
        Reads.failingAs fault (autocomplete r options line) := by
  intro r
  have hsound : r.IsSound := isSound_empty.offerAll requests
  refine ⟨hsound, ?_, answers_register r, ?_, extends_offerAll r, ?_, ?_⟩
  · rw [size_offerAll]
    exact Nat.zero_add _
  · rintro request s hs
    rw [← hs]
    exact Session.register_cases request s
  · exact fun tokens fault => hsound.wellFormed.resolveExact_failingAs tokens
  · exact fun options line fault => hsound.wellFormed.autocomplete_failingAs options line

end Registry

end AliasConsole
