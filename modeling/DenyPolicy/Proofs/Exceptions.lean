import DenyPolicy.Proofs.Text
import DenyPolicy.Proofs.Rules
/-!
# Exception principals

The break-glass group in force is the explicit group when it is not blank, and
otherwise the group of an available remote state when that is not blank, each
trimmed (`ExceptionSources.breakGlass?_eq_some_iff`).  Resolving the sources
only appends to the principals found so far, so the principal of the first
source stays first; with a break-glass group in force the first source is that
group, and its principal heads the list whatever the other sources are.  A
resolution is refused exactly at the first source that is malformed
(`resolveSources_eq_error_iff`), whatever principals came before it.

The main statement, `compile_enforcing_exempts_breakGlass`, is the fail-closed
guarantee: every enforcing policy set exempts, first of all, the group in
force, and exempts the same principals in every rule; and with no group in
force, an enforcing compilation is refused.
-/

namespace DenyPolicy

namespace ExceptionSources

variable {s : ExceptionSources} {g : String} {origin : Origin}

theorem breakGlass?_eq_some_iff :
    s.breakGlass? = some (g, origin) ↔
      (Text.isBlankText s.breakGlassGroup = false ∧ g = Text.trim s.breakGlassGroup ∧
          origin = .explicit) ∨
        (Text.isBlankText s.breakGlassGroup = true ∧ origin = .remoteFallback ∧
          ∃ remote admins, s.remoteFallback = some (.available remote admins) ∧
            Text.isBlankText remote = false ∧ g = Text.trim remote) := by
  unfold breakGlass?
  cases hblank : Text.isBlankText s.breakGlassGroup with
  | false =>
      simp only [Bool.not_false, if_true, Option.some.injEq, Prod.mk.injEq, true_and,
        Bool.false_eq_true, false_and, or_false]
      constructor <;> rintro ⟨rfl, rfl⟩ <;> exact ⟨rfl, rfl⟩
  | true =>
      cases hremote : s.remoteFallback with
      | none => simp
      | some r =>
          cases r with
          | available remote admins =>
              cases hr : Text.isBlankText remote with
              | false =>
                  simp only [Bool.not_true, Bool.false_eq_true, ↓reduceIte, Option.bind_some,
                    RemoteBreakGlass.fallbackGroup?, hr, Option.some.injEq, Prod.mk.injEq,
                    Bool.true_eq_false, false_and, RemoteBreakGlass.available.injEq,
                    exists_and_right, ↓existsAndEq, and_true, exists_eq_left', true_and, false_or]
                  constructor <;> rintro ⟨rfl, rfl⟩ <;> exact ⟨rfl, rfl⟩
              | true => simp [RemoteBreakGlass.fallbackGroup?, hr]
          | unavailable reason => simp [RemoteBreakGlass.fallbackGroup?]

theorem breakGlass?_eq_none_iff :
    s.breakGlass? = none ↔
      Text.isBlankText s.breakGlassGroup = true ∧
        ∀ remote admins, s.remoteFallback = some (.available remote admins) →
          Text.isBlankText remote = true := by
  unfold breakGlass?
  cases hblank : Text.isBlankText s.breakGlassGroup with
  | false => simp
  | true =>
      cases hremote : s.remoteFallback with
      | none => simp
      | some r =>
          cases r with
          | available remote admins =>
              cases hr : Text.isBlankText remote <;> simp [hr, RemoteBreakGlass.fallbackGroup?]
          | unavailable reason => simp [RemoteBreakGlass.fallbackGroup?]

theorem trim_of_breakGlass? (h : s.breakGlass? = some (g, origin)) :
    Text.trim g = g ∧ Text.isBlankText g = false := by
  rcases breakGlass?_eq_some_iff.mp h with ⟨hblank, rfl, -⟩ | ⟨-, -, remote, admins, -, hblank, rfl⟩
  · exact ⟨Text.trim_trim _, by rw [Text.isBlankText_trim, hblank]⟩
  · exact ⟨Text.trim_trim _, by rw [Text.isBlankText_trim, hblank]⟩

theorem ordered_of_breakGlass? (h : s.breakGlass? = some (g, origin)) :
    s.ordered = .breakGlass g ::
      (s.serviceAccounts.map .serviceAccount ++ s.bindings.map .binding ++
        s.exemptions.map .exemption) := by
  simp [ordered, h]

end ExceptionSources

theorem prefix_addPrincipal (acc : List String) (p : String) : acc <+: addPrincipal acc p := by
  unfold addPrincipal
  split
  · exact List.prefix_refl acc
  · exact List.prefix_append acc [p]

variable {scope : String} {t : Instant}

/-- Resolving sources keeps the principals found before them as a prefix. -/
theorem prefix_of_resolveSources {principals expired : List String} :
    ∀ {srcs : List ExceptionSource} {acc accExpired : List String},
      resolveSources scope t srcs acc accExpired = .ok (principals, expired) → acc <+: principals
  | [], acc, accExpired, h => by
      simp only [resolveSources, Except.ok.injEq, Prod.mk.injEq] at h
      obtain ⟨rfl, -⟩ := h
      exact List.prefix_refl acc
  | src :: rest, acc, accExpired, h => by
      cases hsrc : src.resolve scope t with
      | error e => simp [resolveSources, hsrc] at h
      | ok found =>
          cases found with
          | some p =>
              simp only [resolveSources, hsrc, ok_bind] at h
              exact (prefix_addPrincipal acc p).trans (prefix_of_resolveSources h)
          | none =>
              simp only [resolveSources, hsrc, ok_bind] at h
              cases src <;> exact prefix_of_resolveSources h

/-- Resolving sources is refused exactly with the error of the first source that
is refused. -/
theorem resolveSources_eq_error_iff {e : PolicyError} :
    ∀ {srcs : List ExceptionSource} {acc accExpired : List String},
      resolveSources scope t srcs acc accExpired = .error e ↔
        srcs.findSome? (fun src => refusal (src.resolve scope t)) = some e
  | [], acc, accExpired => by simp [resolveSources]
  | src :: rest, acc, accExpired => by
      cases hsrc : src.resolve scope t with
      | error e' => simp [resolveSources, hsrc]
      | ok found =>
          cases found with
          | some p =>
              simp only [resolveSources, hsrc, ok_bind, List.findSome?_cons, refusal_ok]
              exact resolveSources_eq_error_iff
          | none =>
              simp only [resolveSources, hsrc, ok_bind, List.findSome?_cons, refusal_ok]
              cases src <;> exact resolveSources_eq_error_iff

theorem refusal_resolveSources (srcs : List ExceptionSource) (acc accExpired : List String) :
    refusal (resolveSources scope t srcs acc accExpired) =
      srcs.findSome? (fun src => refusal (src.resolve scope t)) :=
  Option.ext fun _ => refusal_eq_some_iff.trans resolveSources_eq_error_iff

variable {s : ExceptionSources} {overridden : Bool}

/-- A resolution succeeds when a break-glass group is in force or the gate is
overridden, and every source resolves; its principals are those of the sources in
order, first occurrences kept. -/
theorem resolveExceptions_eq_ok_iff {r : Resolution} :
    resolveExceptions scope s overridden t = .ok r ↔
      (s.breakGlass?.isSome ∨ overridden = true) ∧
        ∃ principals expired,
          resolveSources scope t s.ordered [] [] = .ok (principals, expired) ∧
            r = ⟨principals, s.breakGlass?.map (·.2), expired, s.superAdmins⟩ := by
  unfold resolveExceptions
  by_cases hclosed : s.breakGlass?.isNone = true ∧ overridden = false
  · have hnone : s.breakGlass?.isSome = false := by simpa using hclosed.1
    simp [hclosed.1, hclosed.2, hnone]
  · have hopen : s.breakGlass?.isSome = true ∨ overridden = true := by
      cases hsome : s.breakGlass?.isSome <;> cases overridden <;> simp_all
    have hcond : ¬ ((s.breakGlass?.map (·.2)).isNone = true ∧ (!overridden) = true) := by
      simpa using hclosed
    rw [if_neg hcond, bind_eq_ok_iff]
    constructor
    · rintro ⟨⟨principals, expired⟩, hsources, hr⟩
      exact ⟨hopen, principals, expired, hsources, (Except.ok.inj hr).symm⟩
    · rintro ⟨-, principals, expired, hsources, rfl⟩
      exact ⟨(principals, expired), hsources, rfl⟩

/-- With a break-glass group in force, the principal of that group heads every
resolved list. -/
theorem head_principals_of_breakGlass? {r : Resolution} {g : String} {origin : Origin}
    (h : resolveExceptions scope s overridden t = .ok r) (hg : s.breakGlass? = some (g, origin)) :
    r.principals.head? = some (groupPrincipal g) := by
  obtain ⟨-, principals, expired, hsources, rfl⟩ := resolveExceptions_eq_ok_iff.mp h
  obtain ⟨htrim, hblank⟩ := ExceptionSources.trim_of_breakGlass? hg
  have hnonempty : g.isEmpty = false := htrim ▸ Text.isEmpty_trim_of_not_blank hblank
  rw [ExceptionSources.ordered_of_breakGlass? hg] at hsources
  cases hemail : Text.isEmail g with
  | false =>
      simp [resolveSources, ExceptionSource.resolve, htrim, hnonempty, hemail] at hsources
  | true =>
      simp only [resolveSources, ExceptionSource.resolve, htrim, hnonempty, hemail,
        Bool.false_eq_true, if_false, if_true, ok_bind] at hsources
      obtain ⟨rest, hrest⟩ := prefix_of_resolveSources hsources
      simp [← hrest, addPrincipal]

/-- An enforcing outcome has a break-glass group in force: its principal heads the
outcome's principals, and every rule exempts exactly those principals. -/
theorem breakGlass_of_compile_enforcing {i : CompilationInput} {o : Outcome}
    (h : i.compile = .ok o) (hinactive : o.policySet.emergencyOverride.active = false) :
    ∃ g origin, i.sources.breakGlass? = some (g, origin) ∧
      o.exceptions.principals.head? = some (groupPrincipal g) ∧
      ∀ r ∈ o.policySet.rules, r.exceptionPrincipals = o.exceptions.principals := by
  obtain ⟨_, t, gate, -, hgate, hexceptions, -⟩ := compile_eq_ok_inv h
  have hoverridden : gate.isOverridden = false := by
    rw [Gate.isOverridden_of_ofRequest hgate, ← active_of_compile h, hinactive]
  rw [hoverridden] at hexceptions
  obtain ⟨hopen, -⟩ := resolveExceptions_eq_ok_iff.mp hexceptions
  obtain ⟨⟨g, origin⟩, hg⟩ := Option.isSome_iff_exists.mp (by simpa using hopen)
  refine ⟨g, origin, hg, head_principals_of_breakGlass? hexceptions hg, ?_⟩
  intro r hr
  rw [rules_of_compile_enforcing h hinactive] at hr
  exact exceptionPrincipals_of_mem_compiled _ _ _ hr

/-- Fail-closed exception lists.  Every enforcing policy set exempts, first of all,
the principal of the break-glass group in force: the explicit group, trimmed, when
it is not blank, and otherwise the trimmed group of an available remote state
whose group is not blank; and every one of its rules exempts exactly the
outcome's principals.  So with no group from either source, a compilation whose
override is not requested is refused, whatever else the input holds. -/
theorem compile_enforcing_exempts_breakGlass (i : CompilationInput) :
    (∀ o, i.compile = .ok o → o.policySet.emergencyOverride.active = false →
      ∃ g, ((Text.isBlankText i.sources.breakGlassGroup = false ∧
              g = Text.trim i.sources.breakGlassGroup) ∨
            (Text.isBlankText i.sources.breakGlassGroup = true ∧
              ∃ remote admins, i.sources.remoteFallback = some (.available remote admins) ∧
                Text.isBlankText remote = false ∧ g = Text.trim remote)) ∧
        o.exceptions.principals.head? = some ("principalSet://goog/group/" ++ g) ∧
        ∀ r ∈ o.policySet.rules, r.exceptionPrincipals = o.exceptions.principals) ∧
    (i.emergency.active = false → Text.isBlankText i.sources.breakGlassGroup = true →
      (∀ remote admins, i.sources.remoteFallback = some (.available remote admins) →
        Text.isBlankText remote = true) →
      ∃ e, i.compile = .error e) := by
  refine ⟨fun o h hinactive => ?_, fun hinactive hblank hremote => ?_⟩
  · obtain ⟨g, origin, hg, hhead, hrules⟩ := breakGlass_of_compile_enforcing h hinactive
    refine ⟨g, ?_, hhead, hrules⟩
    rcases ExceptionSources.breakGlass?_eq_some_iff.mp hg with
      ⟨hblank, hgroup, -⟩ | ⟨hblank, -, remote, admins, hremote, hremoteBlank, hgroup⟩
    · exact .inl ⟨hblank, hgroup⟩
    · exact .inr ⟨hblank, remote, admins, hremote, hremoteBlank, hgroup⟩
  · have hnone : i.sources.breakGlass? = none :=
      ExceptionSources.breakGlass?_eq_none_iff.mpr ⟨hblank, hremote⟩
    cases hcompile : i.compile with
    | error e => exact ⟨e, rfl⟩
    | ok o =>
        obtain ⟨g, origin, hg, -⟩ :=
          breakGlass_of_compile_enforcing hcompile (by rw [active_of_compile hcompile, hinactive])
        rw [hnone] at hg
        cases hg

/-- The ledger project compiles to an enforcing set headed by its group, and the
same project with no group at all is refused. -/
theorem ledger_exempts_breakGlass :
    (∃ o, ledgerInput.compile = .ok o ∧ o.policySet.emergencyOverride.active = false ∧
      ∃ g, ((Text.isBlankText ledgerInput.sources.breakGlassGroup = false ∧
              g = Text.trim ledgerInput.sources.breakGlassGroup) ∨
            (Text.isBlankText ledgerInput.sources.breakGlassGroup = true ∧
              ∃ remote admins, ledgerInput.sources.remoteFallback = some (.available remote admins) ∧
                Text.isBlankText remote = false ∧ g = Text.trim remote)) ∧
        o.exceptions.principals.head? = some ("principalSet://goog/group/" ++ g) ∧
        ∀ r ∈ o.policySet.rules, r.exceptionPrincipals = o.exceptions.principals) ∧
    ∃ e, { ledgerInput with sources := {} }.compile = .error e :=
  ⟨⟨_, rfl, rfl, (compile_enforcing_exempts_breakGlass ledgerInput).1 _ rfl rfl⟩,
    (compile_enforcing_exempts_breakGlass { ledgerInput with sources := {} }).2 rfl (by decide)
      (by simp)⟩

end DenyPolicy
