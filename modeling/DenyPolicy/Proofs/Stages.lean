import DenyPolicy.Compilation
/-!
# Compiling in stages

Compiling an input runs in two stages.  The first checks the input's own
fields and gives the resolved scope with the evaluation instant
(`CompilationInput.checked`); the second opens the emergency gate, resolves the
exception principals, and walks and assembles the rules
(`CompilationInput.release`).  The main statement is `compile_eq_checked_bind`:
compiling is the first stage followed by the second.  Around it stand the
lemmas that later proofs cite in place of unfolding a stage: when a bind of
`Except` succeeds or fails, what the checks leave, and what the gate opens to.
-/

namespace DenyPolicy

section Except

variable {ε α β : Type}

@[simp] theorem ok_bind (a : α) (f : α → Except ε β) : (Except.ok a >>= f) = f a := rfl

@[simp] theorem error_bind (e : ε) (f : α → Except ε β) : (Except.error e >>= f) = .error e := rfl

@[simp] theorem pure_eq_ok (a : α) : (pure a : Except ε α) = .ok a := rfl

theorem bind_eq_ok_iff {x : Except ε α} {f : α → Except ε β} {b : β} :
    x >>= f = .ok b ↔ ∃ a, x = .ok a ∧ f a = .ok b := by
  cases x <;> simp [bind, Except.bind]

/-- The error a computation is refused with, if it is refused. -/
def refusal : Except ε α → Option ε
  | .error e => some e
  | .ok _ => none

@[simp] theorem refusal_error (e : ε) : refusal (.error e : Except ε α) = some e := rfl

@[simp] theorem refusal_ok (a : α) : refusal (.ok a : Except ε α) = none := rfl

theorem refusal_eq_some_iff {x : Except ε α} {e : ε} : refusal x = some e ↔ x = .error e := by
  cases x <;> simp

theorem refusal_eq_none_iff {x : Except ε α} : refusal x = none ↔ ∃ a, x = .ok a := by
  cases x <;> simp

end Except

/-- The first of a list of checks that fails, each check given by the error it
raises when it fails. -/
def firstFailure (checks : List (Option PolicyError)) : Option PolicyError := checks.findSome? id

@[simp] theorem firstFailure_nil : firstFailure [] = none := rfl

theorem firstFailure_append (checks checks' : List (Option PolicyError)) :
    firstFailure (checks ++ checks') = (firstFailure checks).or (firstFailure checks') :=
  List.findSome?_append

theorem firstFailure_map {α : Type} (check : α → Option PolicyError) (xs : List α) :
    firstFailure (xs.map check) = xs.findSome? check :=
  List.findSome?_map

theorem Scope.id_of_resolve {tier : Tier} {id : String} {s : Scope}
    (h : Scope.resolve tier id = .ok s) : s.id = id := by
  obtain ⟨bare, -, hs⟩ := bind_eq_ok_iff.mp h
  cases hs
  rfl

namespace Gate

variable {scope : String} {r : OverrideRequest}

theorem ofRequest_of_inactive (h : r.active = false) : ofRequest scope r = .ok .enforcing := by
  simp [ofRequest, h]

theorem ofRequest_of_active (hactive : r.active = true)
    (hlong : minReasonLength < (Text.trim r.reason).length) :
    ofRequest scope r = .ok (.overridden (Text.trim r.reason)) := by
  have hnot : ¬ (Text.trim r.reason).length ≤ minReasonLength := by omega
  simp [ofRequest, hactive, hnot]

/-- A gate that opens is overridden exactly when the request is active. -/
theorem isOverridden_of_ofRequest {g : Gate} (h : ofRequest scope r = .ok g) :
    g.isOverridden = r.active := by
  cases hactive : r.active with
  | false =>
      rw [ofRequest_of_inactive hactive] at h
      cases h
      rfl
  | true =>
      by_cases hshort : (Text.trim r.reason).length ≤ minReasonLength
      · simp [ofRequest, hactive, hshort] at h
      · rw [ofRequest_of_active hactive (by omega)] at h
        cases h
        rfl

end Gate

namespace CompilationInput

def instantFor (i : CompilationInput) (id : String) : Except PolicyError Instant :=
  match i.evaluationTime with
  | some t => .ok t
  | none => .error (.validation id "evaluation_time" "an explicit evaluation time is required")

def checked (i : CompilationInput) : Except PolicyError (Scope × Instant) := do
  let scope ← i.scope.resolve
  let at_ ← i.instantFor scope.id
  i.params.validate scope.id
  i.overrides.validate scope.id
  pure (scope, at_)

/-- Compiling once the scope and instant are known: the gate, the exception
principals, and the assembled rules. -/
def release (i : CompilationInput) (scope : Scope) (at_ : Instant) : Except PolicyError Outcome := do
  let gate ← Gate.ofRequest scope.id i.emergency
  let exceptions ← resolveExceptions scope.id i.sources gate.isOverridden at_
  let fw := frameworkRules i.frameworks i.context exceptions.principals
  let sh := sharedRules i.frameworks i.context exceptions.principals
  let set ← assemble scope i.context.level i.frameworks gate fw sh
  pure ⟨set, exceptions⟩

theorem compile_eq_checked_bind (i : CompilationInput) :
    i.compile = i.checked >>= fun p => i.release p.1 p.2 := by
  cases ht : i.evaluationTime <;> simp [compile, checked, instantFor, release, ht]

variable {i : CompilationInput}

/-- What the checks leave: a resolved scope with the input's id, and the input's
own instant. -/
theorem checked_eq_ok_iff {scope : Scope} {t : Instant} :
    i.checked = .ok (scope, t) ↔
      i.scope.resolve = .ok scope ∧ i.evaluationTime = some t ∧
        i.params.validate i.scope.id = .ok () ∧ i.overrides.validate i.scope.id = .ok () := by
  constructor
  · intro h
    obtain ⟨s, hs, h⟩ := bind_eq_ok_iff.mp h
    have hid := Scope.id_of_resolve hs
    cases ht : i.evaluationTime with
    | none => simp [instantFor, ht] at h
    | some t' =>
        cases hp : i.params.validate s.id with
        | error e => simp [instantFor, ht, hp] at h
        | ok u =>
            cases ho : i.overrides.validate s.id with
            | error e => simp [instantFor, ht, hp, ho] at h
            | ok v =>
                simp only [instantFor, ht, hp, ho, pure_eq_ok, ok_bind, Except.ok.injEq,
                  Prod.mk.injEq] at h
                obtain ⟨rfl, rfl⟩ := h
                exact ⟨hs, rfl, hid ▸ hp, hid ▸ ho⟩
  · rintro ⟨hs, ht, hp, ho⟩
    have hid := Scope.id_of_resolve hs
    simp [checked, instantFor, hs, ht, hid, hp, ho]

theorem compile_eq_ok_iff {o : Outcome} :
    i.compile = .ok o ↔ ∃ scope t, i.checked = .ok (scope, t) ∧ i.release scope t = .ok o := by
  rw [compile_eq_checked_bind, bind_eq_ok_iff]
  constructor
  · rintro ⟨⟨scope, t⟩, hchecked, hrelease⟩
    exact ⟨scope, t, hchecked, hrelease⟩
  · rintro ⟨scope, t, hchecked, hrelease⟩
    exact ⟨(scope, t), hchecked, hrelease⟩

/-- The release succeeds when the gate opens, the exceptions resolve and the rules
assemble, and its outcome is the assembled set with those exceptions. -/
theorem release_eq_ok_iff {scope : Scope} {t : Instant} {o : Outcome} :
    i.release scope t = .ok o ↔ ∃ gate exceptions set,
      Gate.ofRequest scope.id i.emergency = .ok gate ∧
      resolveExceptions scope.id i.sources gate.isOverridden t = .ok exceptions ∧
      assemble scope i.context.level i.frameworks gate
        (frameworkRules i.frameworks i.context exceptions.principals)
        (sharedRules i.frameworks i.context exceptions.principals) = .ok set ∧
      o = ⟨set, exceptions⟩ := by
  simp only [release, bind_eq_ok_iff, pure_eq_ok, Except.ok.injEq]
  constructor
  · rintro ⟨gate, hgate, exceptions, hexceptions, set, hset, rfl⟩
    exact ⟨gate, exceptions, set, hgate, hexceptions, hset, rfl⟩
  · rintro ⟨gate, exceptions, set, hgate, hexceptions, hset, rfl⟩
    exact ⟨gate, hgate, exceptions, hexceptions, set, hset, rfl⟩

end CompilationInput

end DenyPolicy
