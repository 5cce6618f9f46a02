import DenyPolicy.Proofs.Exceptions
/-!
# The order of refusals

Compiling refuses an input at the first check it fails, and only then.  This
module lists the checks independently of the code that makes them, as a flat
list in the order they are made (`CompilationInput.checks`), each given by the
error it raises when it fails:

1. the scope: a numeric organization, a folder `folders/<numeric>`, or a project
   id of 6 to 30 characters and then of lowercase letters, digits and hyphens;
2. an evaluation instant is present;
3. the framework parameters: the merchant level, then the cardholder tag blank,
   then the tag quoted;
4. the overrides: the approval count, the session cap, the business-hours window,
   its time zone, then the approver group;
5. the emergency gate: an active request needs a reason longer than ten
   characters once trimmed;
6. fail-closed: with no break-glass group, only an override may go on;
7. every exception source in order, each with its own checks; an exemption is
   checked whether or not it has expired.

The first four groups are the input's own fields (`fieldChecks`), the next two the
gate (`gateChecks`), the last the sources (`exceptionChecks`).

The main statement, `compile_refused_iff_firstFailure`, says compiling is refused
with `e` exactly when the first failing check raises `e`, and succeeds exactly
when no check fails: assembling the rules never refuses.
-/

namespace DenyPolicy

def failUnless (ok : Prop) [Decidable ok] (e : PolicyError) : Option PolicyError :=
  if ok then none else some e

theorem failUnless_of_pos {ok : Prop} [Decidable ok] (h : ok) (e : PolicyError) :
    failUnless ok e = none :=
  if_pos h

theorem failUnless_of_neg {ok : Prop} [Decidable ok] (h : ¬ ok) (e : PolicyError) :
    failUnless ok e = some e :=
  if_neg h

@[simp] theorem firstFailure_cons (check : Option PolicyError) (checks : List (Option PolicyError)) :
    firstFailure (check :: checks) = check.or (firstFailure checks) := by
  cases check <;> rfl

/-- A computation refused with `c`, followed after each success by one refused with
`d`, is refused with the first of the two. -/
theorem refusal_bind {ε α β : Type} {x : Except ε α} {f : α → Except ε β} {c d : Option ε}
    (hx : refusal x = c) (hf : ∀ a, x = .ok a → refusal (f a) = d) :
    refusal (x >>= f) = c.or d := by
  cases x with
  | error e =>
      rw [refusal_error] at hx
      subst hx
      rfl
  | ok a =>
      rw [refusal_ok] at hx
      subst hx
      simp [hf a rfl]

theorem refusal_bind_firstFailure {α β : Type} {x : Except PolicyError α}
    {f : α → Except PolicyError β} {checks checks' : List (Option PolicyError)}
    (hx : refusal x = firstFailure checks)
    (hf : ∀ a, x = .ok a → refusal (f a) = firstFailure checks') :
    refusal (x >>= f) = firstFailure (checks ++ checks') := by
  rw [firstFailure_append]
  exact refusal_bind hx hf

/-! ## The checks -/

/-- The scope's checks, each on the raw id and under the field `scope.id`; a
project's length is checked before its characters. -/
def scopeChecks (r : ScopeRef) : List (Option PolicyError) :=
  match r.tier with
  | .organization =>
    [failUnless (isNumeric r.id)
      (.validation r.id "scope.id" "organization id must be a numeric string")]
  | .folder =>
    [failUnless ("folders/".isPrefixOf r.id ∧ isNumeric (r.id.drop 8).toString)
      (.validation r.id "scope.id" "folder id must have the form 'folders/<numeric>'")]
  | .project =>
    [failUnless (6 ≤ r.id.length ∧ r.id.length ≤ 30)
      (.validation r.id "scope.id" ("project id must be 6-30 characters, got " ++ toString r.id.length)),
     failUnless (r.id.toList.all isProjectChar)
      (.validation r.id "scope.id" "project id may contain only lowercase letters, digits, and hyphens")]

/-- The framework parameters' checks. -/
def paramChecks (scope : String) (p : FrameworkParams) : List (Option PolicyError) :=
  [failUnless (1 ≤ p.merchantLevel ∧ p.merchantLevel ≤ 4)
    (.validation scope "framework_params.pci_dss.merchant_level"
      ("merchant level must be between 1 and 4, got " ++ toString p.merchantLevel)),
   failUnless (Text.trim p.cdeTag ≠ "")
    (.validation scope "framework_params.pci_dss.cde_tag"
      "cardholder data environment tag must not be empty"),
   failUnless ('"' ∉ p.cdeTag.toList ∧ '\\' ∉ p.cdeTag.toList)
    (.validation scope "framework_params.pci_dss.cde_tag"
      ("cardholder data environment tag '" ++ p.cdeTag ++ "' may not contain quotes or backslashes"))]

/-- The overrides' checks. -/
def overrideChecks (scope : String) (o : Overrides) : List (Option PolicyError) :=
  let h := o.businessHours
  [failUnless (o.requiredApprovals ≠ some 0)
    (.validation scope "security_control_overrides.required_approvals"
      "required approvals must be at least 1"),
   failUnless (o.maxSessionHours ≠ some 0)
    (.validation scope "security_control_overrides.max_session_hours"
      "max session hours must be at least 1"),
   failUnless (h.startHour < h.endHour ∧ h.endHour ≤ 24)
    (.validation scope "security_control_overrides.business_hours"
      ("invalid window " ++ toString h.startHour ++ ".." ++ toString h.endHour ++
        " (need start < end <= 24)")),
   failUnless (Text.trim h.timeZone ≠ "" ∧ '"' ∉ h.timeZone.toList ∧ '\\' ∉ h.timeZone.toList)
    (.validation scope "security_control_overrides.business_hours.time_zone"
      ("invalid time zone '" ++ h.timeZone ++ "'")),
   match o.approverGroup with
   | some g =>
     failUnless (Text.isEmail (Text.trim g))
       (.validation scope "security_control_overrides.approver_group"
         ("'" ++ g ++ "' is not a valid group email"))
   | none => none]

/-- The checks of one exception source.  A break-glass group that is blank once
trimmed contributes nothing and fails nothing; an exemption is checked the same
whether or not it has expired. -/
def sourceChecks (scope : String) : ExceptionSource → List (Option PolicyError)
  | .breakGlass email =>
    [failUnless ((Text.trim email).isEmpty ∨ Text.isEmail (Text.trim email))
      (.validation scope "exception_sources.break_glass_group"
        ("'" ++ Text.trim email ++ "' is not a valid group email"))]
  | .serviceAccount identity =>
    [failUnless (¬ ((Text.trim identity).isEmpty ∨ (Text.trim identity).toList.any Text.isBlank))
      (.validation scope "exception_sources.service_accounts"
        ("invalid service account identity '" ++ Text.trim identity ++ "'"))]
  | .binding b =>
    [("pool_id", b.poolId), ("provider_id", b.providerId), ("attribute_name", b.attributeName)].map
        (fun (name, value) => failUnless (Text.isIdentifier value)
          (.validation scope (bindingField ++ "." ++ name)
            (name ++ " '" ++ value ++ "' must be lowercase letters, digits, '-' or '_'"))) ++
      [failUnless (b.attributeValue ≠ "" ∧
          b.attributeValue.toList.all (fun c => !Text.isBlank c && !Text.isControl c) = true)
        (.validation scope (bindingField ++ ".attribute_value")
          ("attribute value '" ++ b.attributeValue ++ "' for pool '" ++ b.poolId ++
            "' must be non-empty and contain no whitespace")),
       failUnless (b.projectNumber ≠ "" ∧ b.projectNumber.toList.all Char.isDigit = true)
        (.validation scope (bindingField ++ ".project_number")
          ("project number '" ++ b.projectNumber ++ "' for pool '" ++ b.poolId ++
            "' must be numeric"))]
  | .exemption e =>
    [failUnless (isPrincipalUri (Text.trim e.principal) ∨ Text.isEmail (Text.trim e.principal))
      (.validation scope "exception_sources.temporary_exemptions"
        ("'" ++ Text.trim e.principal ++ "' is neither a principal URI nor a valid email"))]

/-! ## Each stage refuses at its first failing check -/

theorem refusal_ite_error {α : Type} {p : Prop} [Decidable p] {x : Except PolicyError α}
    {e : PolicyError} (hx : refusal x = none) :
    refusal (if p then x else .error e) = failUnless p e := by
  by_cases hp : p <;> simp [failUnless, hp, hx]

theorem refusal_bind_pure {α β : Type} (x : Except PolicyError α) (f : α → β) :
    refusal (x >>= fun a => pure (f a)) = refusal x := by
  cases x <;> rfl

theorem refusal_resolve_scope (r : ScopeRef) : refusal r.resolve = firstFailure (scopeChecks r) := by
  rcases r with ⟨tier, id⟩
  simp only [ScopeRef.resolve, Scope.resolve, refusal_bind_pure]
  cases tier with
  | organization =>
      simp only [Scope.bareId, Scope.invalid, scopeChecks, firstFailure_cons, firstFailure_nil,
        Option.or_none]
      exact refusal_ite_error (refusal_ok _)
  | folder =>
      simp only [Scope.bareId, Scope.invalid, scopeChecks, firstFailure_cons, firstFailure_nil,
        Option.or_none]
      exact refusal_ite_error (refusal_ok _)
  | project =>
      simp only [Scope.bareId, Scope.invalid]
      by_cases hlength : 6 ≤ id.length ∧ id.length ≤ 30
      · have hin : ¬ (id.length < 6 ∨ 30 < id.length) := by omega
        rw [if_neg hin, refusal_ite_error (refusal_ok _), scopeChecks, firstFailure_cons,
          failUnless_of_pos hlength, Option.none_or, firstFailure_cons, firstFailure_nil,
          Option.or_none]
      · have hout : id.length < 6 ∨ 30 < id.length := by omega
        rw [if_pos hout, refusal_error, scopeChecks, firstFailure_cons, failUnless_of_neg hlength,
          Option.some_or]

theorem FrameworkParams.isQuotable_iff (s : String) :
    FrameworkParams.isQuotable s = true ↔ '"' ∉ s.toList ∧ '\\' ∉ s.toList := by
  simp only [FrameworkParams.isQuotable, List.all_eq_true, decide_eq_true_eq]
  constructor
  · intro h
    exact ⟨fun hq => (h _ hq).1 rfl, fun hb => (h _ hb).2 rfl⟩
  · rintro ⟨hq, hb⟩ c hc
    exact ⟨fun h => hq (h ▸ hc), fun h => hb (h ▸ hc)⟩

theorem refusal_validate_params (scope : String) (p : FrameworkParams) :
    refusal (p.validate scope) = firstFailure (paramChecks scope p) := by
  unfold FrameworkParams.validate
  by_cases hlevel : 1 ≤ p.merchantLevel ∧ p.merchantLevel ≤ 4
  · have hin : ¬ (p.merchantLevel < 1 ∨ 4 < p.merchantLevel) := by omega
    have hblank : Text.isBlankText p.cdeTag = true ↔ Text.trim p.cdeTag = "" :=
      (Text.trim_eq_empty_iff _).symm
    have hquotable := FrameworkParams.isQuotable_iff p.cdeTag
    rw [if_neg hin]
    by_cases htag : Text.trim p.cdeTag = ""
    · rw [if_pos (hblank.mpr htag)]
      simp [paramChecks, failUnless, hlevel, htag]
    · rw [if_neg (fun h => htag (hblank.mp h))]
      by_cases hquoted : '"' ∉ p.cdeTag.toList ∧ '\\' ∉ p.cdeTag.toList
      · have hq : FrameworkParams.isQuotable p.cdeTag = true := hquotable.mpr hquoted
        rw [if_neg (by simp [hq])]
        simp [paramChecks, failUnless, hlevel, htag, hquoted]
      · have hq : FrameworkParams.isQuotable p.cdeTag = false :=
          Bool.eq_false_iff.mpr fun h => hquoted (hquotable.mp h)
        rw [if_pos (by simp [hq])]
        simp [paramChecks, failUnless, hlevel, htag, hquoted]
  · have hout : p.merchantLevel < 1 ∨ 4 < p.merchantLevel := by omega
    rw [if_pos hout]
    simp [paramChecks, failUnless, hlevel]

theorem refusal_validate_overrides (scope : String) (o : Overrides) :
    refusal (o.validate scope) = firstFailure (overrideChecks scope o) := by
  unfold Overrides.validate
  by_cases happrovals : o.requiredApprovals = some 0
  · rw [if_pos happrovals]
    simp [overrideChecks, failUnless, happrovals]
  rw [if_neg happrovals]
  by_cases hsession : o.maxSessionHours = some 0
  · rw [if_pos hsession]
    simp [overrideChecks, failUnless, happrovals, hsession]
  rw [if_neg hsession]
  by_cases hwindow : o.businessHours.startHour < o.businessHours.endHour ∧
      o.businessHours.endHour ≤ 24
  · rw [if_neg (by omega)]
    have hblank := Text.trim_eq_empty_iff o.businessHours.timeZone
    have hquotable := FrameworkParams.isQuotable_iff o.businessHours.timeZone
    by_cases hzone : Text.trim o.businessHours.timeZone ≠ "" ∧
        '"' ∉ o.businessHours.timeZone.toList ∧ '\\' ∉ o.businessHours.timeZone.toList
    · have hnotBlank : Text.isBlankText o.businessHours.timeZone = false :=
        Bool.eq_false_iff.mpr fun h => hzone.1 (hblank.mpr h)
      rw [if_neg (by simp [hnotBlank, hquotable.mpr hzone.2])]
      cases hgroup : o.approverGroup with
      | none => simp [overrideChecks, failUnless, happrovals, hsession, hwindow, hzone, hgroup]
      | some g =>
          by_cases hemail : Text.isEmail (Text.trim g) = true <;>
            simp [overrideChecks, failUnless, happrovals, hsession, hwindow, hzone, hgroup, hemail]
    · have hbad : Text.isBlankText o.businessHours.timeZone = true ∨
          FrameworkParams.isQuotable o.businessHours.timeZone = false := by
        by_cases hempty : Text.trim o.businessHours.timeZone = ""
        · exact .inl (hblank.mp hempty)
        · exact .inr (Bool.eq_false_iff.mpr fun h => hzone ⟨hempty, hquotable.mp h⟩)
      rw [if_pos (by simpa using hbad)]
      simp [overrideChecks, failUnless, happrovals, hsession, hwindow, hzone]
  · rw [if_pos (by omega)]
    simp [overrideChecks, failUnless, happrovals, hsession, hwindow]

theorem refusal_ofRequest (scope : String) (r : OverrideRequest) :
    refusal (Gate.ofRequest scope r) =
      failUnless (¬ (r.active = true ∧ (Text.trim r.reason).length ≤ minReasonLength))
        (.emergencyOverride scope ("reason must be longer than " ++ toString minReasonLength ++
          " characters (got " ++ toString (Text.trim r.reason).length ++ ")")) := by
  cases hactive : r.active with
  | false => simp [Gate.ofRequest, failUnless, hactive]
  | true =>
      by_cases hshort : (Text.trim r.reason).length ≤ minReasonLength <;>
        simp [Gate.ofRequest, failUnless, hactive, hshort]

theorem refusal_checkBindingIds (scope : String) (ids : List (String × String)) :
    refusal (checkBindingIds scope ids) =
      firstFailure (ids.map fun (name, value) => failUnless (Text.isIdentifier value)
        (.validation scope (bindingField ++ "." ++ name)
          (name ++ " '" ++ value ++ "' must be lowercase letters, digits, '-' or '_'"))) := by
  induction ids with
  | nil => rfl
  | cons id rest ih =>
      obtain ⟨name, value⟩ := id
      by_cases hid : Text.isIdentifier value = true <;> simp [checkBindingIds, failUnless, hid, ih]

/-- A source is refused at its first failing check, at every instant: whether an
exemption has expired is asked only of a well-formed one. -/
theorem refusal_resolve_source (scope : String) (t : Instant) (src : ExceptionSource) :
    refusal (src.resolve scope t) = firstFailure (sourceChecks scope src) := by
  cases src with
  | breakGlass email =>
      by_cases hempty : (Text.trim email).isEmpty = true
      · simp [ExceptionSource.resolve, sourceChecks, failUnless, hempty]
      · by_cases hemail : Text.isEmail (Text.trim email) = true <;>
          simp [ExceptionSource.resolve, sourceChecks, failUnless, hempty, hemail]
  | serviceAccount identity =>
      by_cases hbad : (Text.trim identity).isEmpty = true ∨
          (Text.trim identity).toList.any Text.isBlank = true
      · simp only [ExceptionSource.resolve, sourceChecks, failUnless, hbad, if_true, not_true,
          if_false, firstFailure_cons, firstFailure_nil, Option.or_none, refusal_error]
      · simp only [ExceptionSource.resolve, sourceChecks, failUnless, hbad, if_false, not_false_eq_true,
          if_true, firstFailure_cons, firstFailure_nil, Option.or_none]
        split <;> rfl
  | binding b =>
      simp only [ExceptionSource.resolve, sourceChecks]
      rw [refusal_bind (refusal_checkBindingIds scope _) (fun _ _ => rfl), firstFailure_append]
      congr 1
      have hvalueBad : (b.attributeValue.isEmpty = true ∨
          (b.attributeValue.toList.any fun c => Text.isBlank c || Text.isControl c) = true) ↔
          ¬ (b.attributeValue ≠ "" ∧
            b.attributeValue.toList.all (fun c => !Text.isBlank c && !Text.isControl c) = true) := by
        by_cases hempty : b.attributeValue = ""
        · simp [String.isEmpty_iff, hempty]
        · simp only [String.isEmpty_iff, hempty, ne_eq, not_false_eq_true, true_and, false_or,
            List.any_eq_true, List.all_eq_true, Bool.or_eq_true, Bool.and_eq_true, Bool.not_eq_true',
            not_forall, not_and, exists_prop]
          constructor
          · rintro ⟨c, hc, hbad⟩
            refine ⟨c, hc, fun hblank hcontrol => ?_⟩
            rcases hbad with hbad | hbad <;> simp_all
          · rintro ⟨c, hc, hbad⟩
            cases hblank : Text.isBlank c
            · exact ⟨c, hc, .inr (by simpa using hbad hblank)⟩
            · exact ⟨c, hc, .inl hblank⟩
      have hnumberBad : (!ExceptionSource.resolve.isNumeric b.projectNumber) = true ↔
          ¬ (b.projectNumber ≠ "" ∧ b.projectNumber.toList.all Char.isDigit = true) := by
        by_cases hempty : b.projectNumber = "" <;>
          simp [ExceptionSource.resolve.isNumeric, String.isEmpty_iff, hempty]
      by_cases hvalue : b.attributeValue ≠ "" ∧
          b.attributeValue.toList.all (fun c => !Text.isBlank c && !Text.isControl c) = true
      · rw [if_neg (fun h => hvalueBad.mp h hvalue)]
        by_cases hnumber : b.projectNumber ≠ "" ∧ b.projectNumber.toList.all Char.isDigit = true
        · rw [if_neg (fun h => hnumberBad.mp h hnumber), firstFailure_cons, firstFailure_cons,
            failUnless_of_pos hvalue, failUnless_of_pos hnumber]
          rfl
        · rw [if_pos (hnumberBad.mpr hnumber), firstFailure_cons, firstFailure_cons,
            failUnless_of_pos hvalue, failUnless_of_neg hnumber]
          rfl
      · rw [if_pos (hvalueBad.mpr hvalue), firstFailure_cons, failUnless_of_neg hvalue]
        rfl
  | exemption e =>
      simp only [ExceptionSource.resolve, sourceChecks]
      have hexpiry : ∀ resolved : String,
          refusal (if e.expiresAt < t then .ok none else .ok (some resolved) :
            Except PolicyError (Option String)) = none := by
        intro resolved
        by_cases hexpired : e.expiresAt < t <;> simp [hexpired]
      by_cases huri : isPrincipalUri (Text.trim e.principal) = true
      · simp [huri, failUnless, hexpiry]
      · by_cases hemail : Text.isEmail (Text.trim e.principal) = true
        · simp [huri, hemail, failUnless, hexpiry]
        · simp [huri, hemail, failUnless]

/-- Resolution is refused first for want of a break-glass group while enforcing,
and then at the first failing check of the sources in order. -/
theorem refusal_resolveExceptions (scope : String) (s : ExceptionSources) (overridden : Bool)
    (t : Instant) :
    refusal (resolveExceptions scope s overridden t) =
      (failUnless (s.breakGlass?.isSome ∨ overridden = true)
        (.configuration scope "exception_sources.break_glass_group"
          ("no break-glass principal and enforcement is live (" ++ s.missingReason ++
            "); refusing to emit rules"))).or
      (firstFailure (s.ordered.map fun src => firstFailure (sourceChecks scope src))) := by
  unfold resolveExceptions
  by_cases hclosed : s.breakGlass?.isNone = true ∧ overridden = false
  · have hnone : s.breakGlass?.isSome = false := by simpa using hclosed.1
    simp [hclosed.1, hclosed.2, hnone, failUnless]
  · have hopen : s.breakGlass?.isSome = true ∨ overridden = true := by
      cases hsome : s.breakGlass?.isSome <;> cases overridden <;> simp_all
    have hcond : ¬ ((s.breakGlass?.map (·.2)).isNone = true ∧ (!overridden) = true) := by
      simpa using hclosed
    rw [if_neg hcond, failUnless_of_pos hopen, Option.none_or, firstFailure_map]
    have hsources : refusal (resolveSources scope t s.ordered [] []) = _ :=
      refusal_resolveSources s.ordered [] []
    simp only [refusal_resolve_source] at hsources
    rw [← hsources]
    cases resolveSources scope t s.ordered [] [] <;> rfl

namespace CompilationInput

def fieldChecks (i : CompilationInput) : List (Option PolicyError) :=
  let id := i.scope.id
  scopeChecks i.scope ++
    [failUnless i.evaluationTime.isSome
      (.validation id "evaluation_time" "an explicit evaluation time is required")] ++
    paramChecks id i.params ++ overrideChecks id i.overrides

/-- The emergency gate's check, then the fail-closed rule. -/
def gateChecks (i : CompilationInput) : List (Option PolicyError) :=
  let id := i.scope.id
  [failUnless (¬ (i.emergency.active = true ∧ (Text.trim i.emergency.reason).length ≤ minReasonLength))
    (.emergencyOverride id ("reason must be longer than " ++ toString minReasonLength ++
      " characters (got " ++ toString (Text.trim i.emergency.reason).length ++ ")")),
   failUnless (i.sources.breakGlass?.isSome ∨ i.emergency.active = true)
    (.configuration id "exception_sources.break_glass_group"
      ("no break-glass principal and enforcement is live (" ++ i.sources.missingReason ++
        "); refusing to emit rules"))]

def exceptionChecks (i : CompilationInput) : List (Option PolicyError) :=
  i.sources.ordered.map fun src => firstFailure (sourceChecks i.scope.id src)

/-- Every check of an input, in the order compiling makes them. -/
def checks (i : CompilationInput) : List (Option PolicyError) :=
  i.fieldChecks ++ i.gateChecks ++ i.exceptionChecks

variable (i : CompilationInput)

/-- The input's own fields are refused at their first failing check. -/
theorem refusal_checked : refusal i.checked = firstFailure i.fieldChecks := by
  have htime : ∀ scope : Scope, scope.id = i.scope.id →
      refusal (i.instantFor scope.id) = firstFailure
        [failUnless i.evaluationTime.isSome
          (.validation i.scope.id "evaluation_time" "an explicit evaluation time is required")] := by
    intro scope hid
    cases ht : i.evaluationTime <;> simp [instantFor, failUnless, hid, ht]
  unfold checked fieldChecks
  simp only [List.append_assoc]
  apply refusal_bind_firstFailure (refusal_resolve_scope i.scope)
  intro scope hscope
  have hid := Scope.id_of_resolve hscope
  apply refusal_bind_firstFailure (htime scope hid)
  intro _ _
  rw [hid]
  apply refusal_bind_firstFailure (refusal_validate_params i.scope.id i.params)
  intro _ _
  rw [← List.append_nil (overrideChecks i.scope.id i.overrides)]
  exact refusal_bind_firstFailure (refusal_validate_overrides i.scope.id i.overrides) fun _ _ => rfl

/-- Once the input's own fields pass, the gate is checked, then the fail-closed
rule, then the sources; assembling refuses nothing. -/
theorem refusal_release (scope : Scope) (t : Instant) (hid : scope.id = i.scope.id) :
    refusal (i.release scope t) = firstFailure (i.gateChecks ++ i.exceptionChecks) := by
  unfold release gateChecks exceptionChecks
  rw [hid, List.cons_append, List.cons_append, List.nil_append, firstFailure_cons, firstFailure_cons]
  refine refusal_bind (refusal_ofRequest _ _) fun gate hgate => ?_
  rw [Gate.isOverridden_of_ofRequest hgate, ← @Option.or_none _ (Option.or _ _)]
  refine refusal_bind (refusal_resolveExceptions _ _ _ _) fun exceptions _ => ?_
  obtain ⟨set, hset, -⟩ := @assemble_of_mergeRules scope i.context.level i.frameworks gate _ _ _
    (mergeRules_compiled i.frameworks i.context exceptions.principals scope)
  dsimp only
  rw [hset]
  rfl

/-- Compiling is refused at the first failing check of the whole list. -/
theorem refusal_compile : refusal i.compile = firstFailure i.checks := by
  rw [compile_eq_checked_bind, checks, List.append_assoc]
  apply refusal_bind_firstFailure (refusal_checked i)
  rintro ⟨scope, t⟩ hchecked
  exact refusal_release i scope t (Scope.id_of_resolve (checked_eq_ok_iff.mp hchecked).1)

/-- Compiling is refused with `e` exactly when the first failing check of the
input raises `e`, and succeeds exactly when every check passes. -/
theorem compile_refused_iff_firstFailure :
    (∀ e, i.compile = .error e ↔ firstFailure i.checks = some e) ∧
      ((∃ o, i.compile = .ok o) ↔ firstFailure i.checks = none) := by
  rw [← refusal_compile]
  exact ⟨fun e => refusal_eq_some_iff.symm, refusal_eq_none_iff.symm⟩

/-- A short reason with no break-glass group is refused at the gate, before the
fail-closed rule is reached. -/
example : { ledgerInput with sources := {}, emergency := ⟨true, " drill "⟩ }.compile =
    .error (.emergencyOverride "ledger-prod" "reason must be longer than 10 characters (got 5)") := by
  decide

end CompilationInput

end DenyPolicy
