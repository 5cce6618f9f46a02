import DenyPolicy.Proofs.Expiry
/-!
# Exception principals against their reference

`ExceptionSources.reference` writes down what resolving the exception sources
of a scope gives, without the running lists of the resolver.  The break-glass
group in force is the explicit group, trimmed, unless it is blank, and otherwise
the trimmed group of an available remote state unless that is blank.  With no
group while enforcement is live the answer is the configuration error.  Else the
sources are listed with that group first, then the service accounts, the
bindings and the exemptions; the answer is the first failing check of the first
malformed source, or else the principal of each source listed once, where it
first occurs (`List.eraseDups`), the origin of the group, the exemptions expired
at the instant, and the super administrators of the remote state.

The main statement, `resolveExceptions_eq_reference`, says that resolving is
that reference for every input.  It rests on two facts: a source that passes its
checks resolves to its principal (`ExceptionSource.resolve_of_checks`), and
adding a principal unless it is listed keeps the list equal to the principals
so far with their repeats erased (`addPrincipal_append_eraseDups`).
-/

namespace DenyPolicy

/-! ## The reference -/

/-- The principal a source stands for at the instant `t` once its checks pass:
for a group that is not empty once trimmed, the principal of that group; for a
service account, trimmed, itself when it is a principal URI and its
service-account principal otherwise; for a binding, the principal set of its
pool's attribute value; and for an exemption live at `t`, its principal, trimmed,
itself when it is a principal URI and as a subject otherwise. -/
def ExceptionSource.principalAt (t : Instant) : ExceptionSource → Option String
  | .breakGlass email =>
    if (Text.trim email).isEmpty then none else some ("principalSet://goog/group/" ++ Text.trim email)
  | .serviceAccount identity =>
    let id := Text.trim identity
    some (if Text.containsText id "://" then id
      else "principal://iam.googleapis.com/projects/-/serviceAccounts/" ++ id)
  | .binding b =>
    some ("principalSet://iam.googleapis.com/projects/" ++ b.projectNumber ++
      "/locations/global/workloadIdentityPools/" ++ b.poolId ++ "/attribute." ++ b.attributeName ++
      "/" ++ b.attributeValue)
  | .exemption e =>
    if e.expiresAt < t then none
    else
      let p := Text.trim e.principal
      some (if Text.containsText p "://" then p else "principal://goog/subject/" ++ p)

namespace ExceptionSources

def referenceGroup (s : ExceptionSources) : Option (String × Origin) :=
  if Text.isBlankText s.breakGlassGroup = false then some (Text.trim s.breakGlassGroup, .explicit)
  else match s.remoteFallback with
    | some (.available g _) =>
      if Text.isBlankText g = false then some (Text.trim g, .remoteFallback) else none
    | _ => none

/-- The sources in the order their principals are listed: the group in force,
then the service accounts, the bindings and the exemptions as given. -/
def referenceSources (s : ExceptionSources) : List ExceptionSource :=
  (s.referenceGroup.map fun g => ExceptionSource.breakGlass g.1).toList ++
    s.serviceAccounts.map .serviceAccount ++ s.bindings.map .binding ++ s.exemptions.map .exemption

/-- What resolving the sources of `scope` at `t` gives: with no group in force
while enforcement is live, the configuration error; otherwise the first failing
check of the first malformed source; otherwise the principals of the sources,
each once where it first occurs, the origin of the group, the untrimmed
principals of the exemptions expired at `t` in their order, and the super
administrators of an available remote state. -/
def reference (s : ExceptionSources) (scope : String) (overridden : Bool) (t : Instant) :
    Except PolicyError Resolution :=
  if s.referenceGroup.isNone = true ∧ overridden = false then
    .error (.configuration scope "exception_sources.break_glass_group"
      ("no break-glass principal and enforcement is live (" ++ s.missingReason ++
        "); refusing to emit rules"))
  else
    match s.referenceSources.findSome? fun src => firstFailure (sourceChecks scope src) with
    | some e => .error e
    | none => .ok
      { principals := (s.referenceSources.filterMap (·.principalAt t)).eraseDups
        origin := s.referenceGroup.map (·.2)
        expired := (s.exemptions.filter (·.expiresAt < t)).map (·.principal)
        superAdmins := match s.remoteFallback with
          | some (.available _ admins) => admins
          | _ => [] }

variable (s : ExceptionSources)

theorem breakGlass?_eq_referenceGroup : s.breakGlass? = s.referenceGroup := by
  unfold breakGlass? referenceGroup
  cases hblank : Text.isBlankText s.breakGlassGroup with
  | false => rfl
  | true =>
      cases hremote : s.remoteFallback with
      | none => rfl
      | some r =>
          cases r with
          | available g admins =>
              cases hg : Text.isBlankText g <;> simp [RemoteBreakGlass.fallbackGroup?, hg]
          | unavailable reason => rfl

theorem ordered_eq_referenceSources : s.ordered = s.referenceSources := by
  unfold ordered referenceSources
  rw [breakGlass?_eq_referenceGroup]
  cases s.referenceGroup <;> rfl

theorem filterMap_expiredAt_ordered (t : Instant) :
    s.ordered.filterMap (ExceptionSource.expiredAt t) =
      (s.exemptions.filter (·.expiresAt < t)).map (·.principal) := by
  rw [ordered_eq_standing_append, List.filterMap_append, filterMap_expiredAt_exemptions,
    List.filterMap_eq_nil_iff.mpr, List.nil_append]
  intro src hsrc
  cases src with
  | exemption e => exact absurd rfl (ne_exemption_of_mem_standing hsrc e)
  | _ => rfl

end ExceptionSources

/-! ## One source -/

variable {scope : String} {t : Instant}

theorem failUnless_eq_none_iff {ok : Prop} [Decidable ok] {e : PolicyError} :
    failUnless ok e = none ↔ ok := by
  unfold failUnless
  split <;> simp_all

/-- A source whose checks all pass resolves to its principal. -/
theorem ExceptionSource.resolve_of_checks {src : ExceptionSource}
    (h : firstFailure (sourceChecks scope src) = none) : src.resolve scope t = .ok (src.principalAt t) := by
  cases src with
  | breakGlass email =>
      by_cases hempty : (Text.trim email).isEmpty = true
      · simp [resolve, principalAt, hempty]
      · have hemail : Text.isEmail (Text.trim email) = true := by
          simp only [sourceChecks, firstFailure_cons, firstFailure_nil, Option.or_none,
            failUnless_eq_none_iff] at h
          exact h.resolve_left hempty
        simp only [resolve, principalAt, if_neg hempty, if_pos hemail]
        rfl
  | serviceAccount identity =>
      have hgood : ¬ ((Text.trim identity).isEmpty = true ∨
          (Text.trim identity).toList.any Text.isBlank = true) := by
        simpa only [sourceChecks, firstFailure_cons, firstFailure_nil, Option.or_none,
          failUnless_eq_none_iff] using h
      simp only [resolve, principalAt, if_neg hgood, isPrincipalUri]
      by_cases huri : Text.containsText (Text.trim identity) "://" = true <;> simp [huri]
  | binding b =>
      have hids := refusal_checkBindingIds scope
        [("pool_id", b.poolId), ("provider_id", b.providerId), ("attribute_name", b.attributeName)]
      simp only [sourceChecks, firstFailure_append, Option.or_eq_none_iff] at h
      obtain ⟨hidsOk, hrest⟩ := h
      obtain ⟨u, hu⟩ := refusal_eq_none_iff.mp (hids.trans hidsOk)
      simp only [firstFailure_cons, firstFailure_nil, Option.or_none, Option.or_eq_none_iff] at hrest
      obtain ⟨hvalue, hnumber⟩ := hrest
      obtain ⟨hvalueNonempty, hvalueChars⟩ := failUnless_eq_none_iff.mp hvalue
      obtain ⟨hnumberNonempty, hnumberDigits⟩ := failUnless_eq_none_iff.mp hnumber
      have hvalueOk : ¬ (b.attributeValue.isEmpty = true ∨
          (b.attributeValue.toList.any fun c => Text.isBlank c || Text.isControl c) = true) := by
        rintro (hempty | hany)
        · exact hvalueNonempty (String.isEmpty_iff.mp hempty)
        · obtain ⟨c, hc, hbad⟩ := List.any_eq_true.mp hany
          have hgood := List.all_eq_true.mp hvalueChars c hc
          cases hblank : Text.isBlank c <;> cases hcontrol : Text.isControl c <;>
            simp_all
      have hnumberOk : (!resolve.isNumeric b.projectNumber) = false := by
        simp [resolve.isNumeric, hnumberNonempty, hnumberDigits]
      simp only [resolve, hu, ok_bind, if_neg hvalueOk, hnumberOk, Bool.false_eq_true, if_false,
        principalAt]
  | exemption e =>
      have hgood : isPrincipalUri (Text.trim e.principal) = true ∨
          Text.isEmail (Text.trim e.principal) = true := by
        simpa only [sourceChecks, firstFailure_cons, firstFailure_nil, Option.or_none,
          failUnless_eq_none_iff] using h
      rw [isPrincipalUri] at hgood
      rw [resolve_exemption]
      unfold Exemption.target principalAt isPrincipalUri
      by_cases huri : Text.containsText (Text.trim e.principal) "://" = true
      · by_cases hexpired : e.expiresAt < t <;> simp [huri, hexpired, Except.map]
      · have hemail := hgood.resolve_left huri
        by_cases hexpired : e.expiresAt < t <;> simp [huri, hemail, hexpired, Except.map]

/-! ## The list of principals -/

/-- Adding a principal unless it is listed, in front of principals still to come,
is the list so far followed by what is new among them, each once. -/
theorem addPrincipal_append_eraseDups (acc : List String) (p : String) (xs : List String) :
    addPrincipal acc p ++ (xs.removeAll (addPrincipal acc p)).eraseDups =
      acc ++ ((p :: xs).removeAll acc).eraseDups := by
  unfold addPrincipal
  by_cases hp : acc.contains p = true
  · have hmem : p ∈ acc := by simpa using hp
    simp [List.cons_removeAll, hmem]
  · have hmem : p ∉ acc := by simpa using hp
    rw [if_neg hp, List.cons_removeAll, if_pos (by simpa using hmem), List.eraseDups_cons,
      List.append_assoc, List.singleton_append]
    congr 2
    simp only [List.removeAll, List.filter_filter]
    congr 1
    refine List.filter_congr fun x _ => ?_
    by_cases hx : x = p <;> simp [hx, hmem]

/-- Resolving sources that all pass their checks lists, after `acc`, the new
principals of the sources each once, and records their expired exemptions. -/
theorem resolveSources_of_checks :
    ∀ {srcs : List ExceptionSource} {acc ex : List String},
      (∀ src ∈ srcs, firstFailure (sourceChecks scope src) = none) →
        resolveSources scope t srcs acc ex =
          .ok (acc ++ ((srcs.filterMap (·.principalAt t)).removeAll acc).eraseDups,
            ex ++ srcs.filterMap (ExceptionSource.expiredAt t))
  | [], acc, ex, _ => by simp [resolveSources]
  | src :: rest, acc, ex, h => by
      have hsrc := ExceptionSource.resolve_of_checks (t := t) (h src List.mem_cons_self)
      have hrest : ∀ src ∈ rest, firstFailure (sourceChecks scope src) = none :=
        fun src' hsrc' => h src' (List.mem_cons_of_mem src hsrc')
      cases hp : src.principalAt t with
      | some p =>
          rw [hp] at hsrc
          simp only [resolveSources, hsrc, ok_bind, resolveSources_of_checks hrest,
            List.filterMap_cons, hp, addPrincipal_append_eraseDups,
            ExceptionSource.expiredAt_of_resolve_some hsrc]
      | none =>
          rw [hp] at hsrc
          cases src with
          | exemption e =>
              simp only [resolveSources, hsrc, ok_bind, resolveSources_of_checks hrest,
                List.filterMap_cons, hp, ExceptionSource.expiredAt_of_resolve_none hsrc,
                List.append_assoc, List.singleton_append]
          | _ =>
              simp only [resolveSources, hsrc, ok_bind, resolveSources_of_checks hrest,
                List.filterMap_cons, hp, ExceptionSource.expiredAt]

/-! ## Resolution -/

/-- Resolving the exception sources of a scope is its reference, at every input:
the configuration error without a group while enforcing, else the first failing
check of the first malformed source, else the principals of the sources each
once where it first occurs, the group's origin, the exemptions expired at `t`,
and the super administrators of the remote state. -/
theorem resolveExceptions_eq_reference (scope : String) (s : ExceptionSources) (overridden : Bool)
    (t : Instant) : resolveExceptions scope s overridden t = s.reference scope overridden t := by
  unfold resolveExceptions ExceptionSources.reference
  rw [s.breakGlass?_eq_referenceGroup, ← s.ordered_eq_referenceSources]
  by_cases hclosed : s.referenceGroup.isNone = true ∧ overridden = false
  · simp [hclosed]
  · have hopen : ¬ ((s.referenceGroup.map (·.2)).isNone = true ∧ (!overridden) = true) := by
      simpa using hclosed
    rw [if_neg hopen, if_neg hclosed]
    cases hfirst : s.ordered.findSome? fun src => firstFailure (sourceChecks scope src) with
    | some e =>
        have herror : resolveSources scope t s.ordered [] [] = .error e := by
          rw [resolveSources_eq_error_iff]
          simpa only [refusal_resolve_source] using hfirst
        simp [herror]
    | none =>
        have hchecks := List.findSome?_eq_none_iff.mp hfirst
        rw [resolveSources_of_checks (fun src hsrc => hchecks src hsrc)]
        cases hremote : s.remoteFallback with
        | none => simp [s.filterMap_expiredAt_ordered, ExceptionSources.superAdmins, hremote]
        | some r =>
            cases r <;>
              simp [s.filterMap_expiredAt_ordered, ExceptionSources.superAdmins, hremote,
                RemoteBreakGlass.superAdmins]

end DenyPolicy
