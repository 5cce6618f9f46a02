import DenyPolicy.Proofs.Precedence
import Mathlib.Data.List.Basic
/-!
# What the evaluation instant changes

Compiling reads its evaluation instant in one place: a temporary exemption that
expired before it is recorded as expired rather than exempted.  Every check is
made whether or not an exemption has expired, so the refusals of an input are
the same at every instant (`CompilationInput.checks_atInstant`).

Resolving the sources lists each principal once, in the order the sources come
(`Resolved`).  The sources other than the exemptions read no instant, so their
principals `P` are the same at every instant and head the list; the exemptions
still live then add the principals not listed yet.  An exemption is live at the
instant it expires.

The main statement, `compile_time_affects_only_exemptions`, compares the
compiles of one input at two instants `t₁ ≤ t₂`.  They are refused with the same
error, or both succeed; two successes differ only in what the exception
principals reach.  Both principal lists are `P` followed by new principals of
live exemptions, those at `t₂` among those at `t₁`, and the exemptions expired at
`t₁` are a sublist of those expired at `t₂`.
-/

namespace DenyPolicy

theorem Instant.lt_of_lt_of_le {a b c : Instant} (hab : a < b) (hbc : b ≤ c) : a < c := by
  have hcb : ¬ Instant.lt c b := hbc
  change Instant.lt a b at hab
  change Instant.lt a c
  unfold Instant.lt at hab hcb ⊢
  omega

/-! ## Sources and the instant -/

/-- What an exemption stands for while it is live: its principal, trimmed, when
that is a principal URI, and otherwise the subject of a valid email. -/
def Exemption.target (scope : String) (e : Exemption) : Except PolicyError String :=
  let p := Text.trim e.principal
  if isPrincipalUri p then .ok p
  else if Text.isEmail p then .ok ("principal://goog/subject/" ++ p)
  else .error (.validation scope "exception_sources.temporary_exemptions"
    ("'" ++ p ++ "' is neither a principal URI nor a valid email"))

variable {scope : String} {t : Instant}

theorem resolve_exemption (scope : String) (t : Instant) (e : Exemption) :
    (ExceptionSource.exemption e).resolve scope t =
      (e.target scope).map fun p => if e.expiresAt < t then none else some p := by
  unfold ExceptionSource.resolve Exemption.target
  by_cases huri : isPrincipalUri (Text.trim e.principal) = true
  · by_cases hexpired : e.expiresAt < t <;> simp [huri, hexpired, Except.map]
  · by_cases hemail : Text.isEmail (Text.trim e.principal) = true
    · by_cases hexpired : e.expiresAt < t <;> simp [huri, hemail, hexpired, Except.map]
    · simp [huri, hemail, Except.map]

theorem resolve_exemption_eq_some {e : Exemption} {x : String} :
    (ExceptionSource.exemption e).resolve scope t = .ok (some x) ↔
      e.target scope = .ok x ∧ ¬ e.expiresAt < t := by
  rw [resolve_exemption]
  cases e.target scope <;> by_cases hexpired : e.expiresAt < t <;> simp [Except.map, hexpired]

/-- The expired principal a source records at `t`: an exemption's own principal,
untrimmed, once it has expired. -/
def ExceptionSource.expiredAt (t : Instant) : ExceptionSource → Option String
  | .exemption e => if e.expiresAt < t then some e.principal else none
  | _ => none

theorem ExceptionSource.expiredAt_of_resolve_some {src : ExceptionSource} {p : String}
    (h : src.resolve scope t = .ok (some p)) : src.expiredAt t = none := by
  cases src with
  | exemption e => simp [expiredAt, (resolve_exemption_eq_some.mp h).2]
  | _ => rfl

theorem ExceptionSource.expiredAt_of_resolve_none {e : Exemption}
    (h : (ExceptionSource.exemption e).resolve scope t = .ok none) :
    (ExceptionSource.exemption e).expiredAt t = some e.principal := by
  rw [resolve_exemption] at h
  cases htarget : e.target scope <;> by_cases hexpired : e.expiresAt < t <;>
    simp_all [Except.map, expiredAt]

theorem resolve_instant {src : ExceptionSource} (h : ∀ e, src ≠ .exemption e) (t₁ t₂ : Instant) :
    src.resolve scope t₁ = src.resolve scope t₂ := by
  cases src with
  | exemption e => exact absurd rfl (h e)
  | _ => rfl

namespace ExceptionSources

/-- The sources other than the exemptions: the break-glass group in force, the
service accounts and the bindings. -/
def standing (s : ExceptionSources) : List ExceptionSource :=
  (match s.breakGlass? with
   | some (g, _) => [ExceptionSource.breakGlass g]
   | none => []) ++
  s.serviceAccounts.map .serviceAccount ++ s.bindings.map .binding

theorem ordered_eq_standing_append (s : ExceptionSources) :
    s.ordered = s.standing ++ s.exemptions.map .exemption := rfl

theorem ne_exemption_of_mem_standing {s : ExceptionSources} {src : ExceptionSource}
    (h : src ∈ s.standing) (e : Exemption) : src ≠ .exemption e := by
  rintro rfl
  unfold standing at h
  cases hbreakGlass : s.breakGlass? with
  | none => simp [hbreakGlass] at h
  | some found => simp [hbreakGlass] at h

end ExceptionSources

/-! ## Resolving in order -/

theorem mem_addPrincipal {acc : List String} {p x : String} :
    x ∈ addPrincipal acc p ↔ x ∈ acc ∨ x = p := by
  unfold addPrincipal
  split
  · constructor
    · exact .inl
    · rintro (hx | rfl)
      · exact hx
      · simpa using ‹acc.contains x = true›
  · simp

theorem nodup_addPrincipal {acc : List String} (h : acc.Nodup) (p : String) :
    (addPrincipal acc p).Nodup := by
  unfold addPrincipal
  split
  · exact h
  · rename_i hfresh
    refine List.nodup_append.mpr ⟨h, by simp, ?_⟩
    rintro a ha b hb rfl
    rw [List.mem_singleton] at hb
    subst hb
    exact hfresh (by simpa using ha)

theorem exists_resolve_cons {src : ExceptionSource} {rest : List ExceptionSource} {x : String} :
    (∃ s ∈ src :: rest, s.resolve scope t = .ok (some x)) ↔
      src.resolve scope t = .ok (some x) ∨ ∃ s ∈ rest, s.resolve scope t = .ok (some x) := by
  simp only [List.mem_cons, or_and_right, exists_or, exists_eq_left]

/-- What resolving the sources `srcs` after the principals `acc` and the expired
principals `ex` gives: `acc` followed by the principals of the sources not listed
yet, and after `ex` the expired principals of the sources. -/
structure Resolved (scope : String) (t : Instant) (srcs : List ExceptionSource)
    (acc ex principals expired : List String) : Prop where
  grows : acc <+: principals
  mem_iff : ∀ x, x ∈ principals ↔ x ∈ acc ∨ ∃ src ∈ srcs, src.resolve scope t = .ok (some x)
  nodup : acc.Nodup → principals.Nodup
  expired_eq : expired = ex ++ srcs.filterMap (ExceptionSource.expiredAt t)

theorem resolved_of_resolveSources :
    ∀ {srcs : List ExceptionSource} {acc ex principals expired : List String},
      resolveSources scope t srcs acc ex = .ok (principals, expired) →
        Resolved scope t srcs acc ex principals expired
  | [], acc, ex, principals, expired, h => by
      simp only [resolveSources, Except.ok.injEq, Prod.mk.injEq] at h
      obtain ⟨rfl, rfl⟩ := h
      exact ⟨List.prefix_refl _, by simp, id, by simp⟩
  | src :: rest, acc, ex, principals, expired, h => by
      cases hsrc : src.resolve scope t with
      | error e => simp [resolveSources, hsrc] at h
      | ok found =>
          cases found with
          | some p =>
              simp only [resolveSources, hsrc, ok_bind] at h
              have hrest := resolved_of_resolveSources h
              refine ⟨(prefix_addPrincipal acc p).trans hrest.grows, fun x => ?_,
                fun hacc => hrest.nodup (nodup_addPrincipal hacc p), ?_⟩
              · rw [hrest.mem_iff, mem_addPrincipal, exists_resolve_cons, hsrc, Except.ok.injEq,
                  Option.some.injEq, or_assoc, @eq_comm _ x p]
              · rw [hrest.expired_eq, List.filterMap_cons, ExceptionSource.expiredAt_of_resolve_some hsrc]
          | none =>
              have hnone : ∀ x, src.resolve scope t ≠ .ok (some x) := by
                intro x hx
                rw [hsrc] at hx
                cases hx
              cases src with
              | exemption e =>
                  simp only [resolveSources, hsrc, ok_bind] at h
                  have hrest := resolved_of_resolveSources h
                  refine ⟨hrest.grows, fun x => ?_, hrest.nodup, ?_⟩
                  · rw [hrest.mem_iff, exists_resolve_cons]
                    simp [hnone x]
                  · rw [hrest.expired_eq, List.filterMap_cons,
                      ExceptionSource.expiredAt_of_resolve_none hsrc, List.append_assoc]
                    rfl
              | _ =>
                  simp only [resolveSources, hsrc, ok_bind] at h
                  have hrest := resolved_of_resolveSources h
                  refine ⟨hrest.grows, fun x => ?_, hrest.nodup, ?_⟩
                  · rw [hrest.mem_iff, exists_resolve_cons]
                    simp [hnone x]
                  · rw [hrest.expired_eq, List.filterMap_cons]
                    rfl

theorem resolveSources_append (xs ys : List ExceptionSource) (acc ex : List String) :
    resolveSources scope t (xs ++ ys) acc ex =
      resolveSources scope t xs acc ex >>= fun r => resolveSources scope t ys r.1 r.2 := by
  induction xs generalizing acc ex with
  | nil => rfl
  | cons src rest ih =>
      cases hsrc : src.resolve scope t with
      | error e => simp [resolveSources, hsrc]
      | ok found =>
          cases found with
          | some p => simp [resolveSources, hsrc, ih]
          | none => cases src <;> simp [resolveSources, hsrc, ih]

theorem resolveSources_instant {srcs : List ExceptionSource}
    (h : ∀ src ∈ srcs, ∀ e, src ≠ .exemption e) (t₁ t₂ : Instant) (acc ex : List String) :
    resolveSources scope t₁ srcs acc ex = resolveSources scope t₂ srcs acc ex := by
  induction srcs generalizing acc ex with
  | nil => rfl
  | cons src rest ih =>
      have hrest : ∀ src ∈ rest, ∀ e, src ≠ .exemption e :=
        fun src' hsrc' => h src' (List.mem_cons_of_mem src hsrc')
      simp only [resolveSources, resolve_instant (h src List.mem_cons_self) t₁ t₂, ih hrest]

theorem filterMap_expiredAt_exemptions (t : Instant) (es : List Exemption) :
    (es.map .exemption).filterMap (ExceptionSource.expiredAt t) =
      (es.filter (·.expiresAt < t)).map (·.principal) := by
  induction es with
  | nil => rfl
  | cons e es ih =>
      by_cases hexpired : e.expiresAt < t <;>
        simp [ExceptionSource.expiredAt, hexpired, ih]

/-- Resolution at `t`: the principals of the standing sources `P`, then the new
principals of the exemptions live at `t`, each once; and the expired exemptions'
own principals, in order. -/
theorem principals_of_resolveExceptions {s : ExceptionSources} {overridden : Bool} {r : Resolution}
    (h : resolveExceptions scope s overridden t = .ok r) :
    ∃ P, resolveSources scope t s.standing [] [] = .ok (P, []) ∧ ∃ X,
      r.principals = P ++ X ∧ (P ++ X).Nodup ∧
      (∀ x, x ∈ X ↔ x ∉ P ∧ ∃ e ∈ s.exemptions, ¬ e.expiresAt < t ∧ e.target scope = .ok x) ∧
      r.expired = (s.exemptions.filter (·.expiresAt < t)).map (·.principal) := by
  obtain ⟨-, principals, expired, hsources, rfl⟩ := resolveExceptions_eq_ok_iff.mp h
  rw [ExceptionSources.ordered_eq_standing_append, resolveSources_append, bind_eq_ok_iff] at hsources
  obtain ⟨⟨P, ex⟩, hstanding, hexemptions⟩ := hsources
  have hP := resolved_of_resolveSources hstanding
  have hex : ex = [] := by
    rw [hP.expired_eq, List.nil_append, List.filterMap_eq_nil_iff]
    intro src hsrc
    cases src with
    | exemption e => exact absurd rfl (ExceptionSources.ne_exemption_of_mem_standing hsrc e)
    | _ => rfl
  subst hex
  have hX := resolved_of_resolveSources hexemptions
  obtain ⟨X, hX_eq⟩ := hX.grows
  have hnodup : (P ++ X).Nodup := hX_eq ▸ hX.nodup (hP.nodup List.nodup_nil)
  refine ⟨P, hstanding, X, hX_eq.symm, hnodup, fun x => ?_, ?_⟩
  · have hmem := hX.mem_iff x
    rw [← hX_eq, List.mem_append] at hmem
    simp only [List.mem_map, exists_exists_and_eq_and, resolve_exemption_eq_some] at hmem
    constructor
    · intro hx
      have hxP : x ∉ P := fun hxP => (List.nodup_append.mp hnodup).2.2 x hxP x hx rfl
      exact ⟨hxP, (hmem.mp (.inr hx)).resolve_left hxP |>.imp fun e ⟨he, htarget, hlive⟩ =>
        ⟨he, hlive, htarget⟩⟩
    · rintro ⟨hxP, e, he, hlive, htarget⟩
      exact (hmem.mpr (.inr ⟨e, he, htarget, hlive⟩)).resolve_left hxP
  · rw [hX.expired_eq, List.nil_append, filterMap_expiredAt_exemptions]

/-! ## Outcomes at two instants -/

/-- A rule with its exception principals left out. -/
def DenyRule.withoutExceptions (r : DenyRule) : DenyRule := { r with exceptionPrincipals := [] }

/-- An outcome with what its exception principals reach left out: the principals
and expired exemptions of its resolution, the exceptions of each rule, and the
digest over them. -/
def Outcome.withoutExceptions (o : Outcome) : Outcome :=
  ⟨{ o.policySet with rules := o.policySet.rules.map DenyRule.withoutExceptions, digest := "" },
    { o.exceptions with principals := [], expired := [] }⟩

theorem walkRule_withoutExceptions (cat : RuleCategory) (ctx : Context) (c : Control)
    (exceptions exceptions' : List String) :
    (walkRule cat ctx exceptions c).map DenyRule.withoutExceptions =
      (walkRule cat ctx exceptions' c).map DenyRule.withoutExceptions := by
  unfold walkRule
  split
  · split <;> rfl
  · rfl

theorem tableWalk_withoutExceptions (enabled : FrameworkSet) (ctx : Context)
    (exceptions exceptions' : List String) :
    (tableWalk enabled ctx exceptions).map DenyRule.withoutExceptions =
      (tableWalk enabled ctx exceptions').map DenyRule.withoutExceptions := by
  simp only [tableWalk, List.map_flatMap, List.map_filterMap,
    walkRule_withoutExceptions _ _ _ exceptions exceptions']

theorem countByCategory_withoutExceptions (rules : List DenyRule) :
    countByCategory (rules.map DenyRule.withoutExceptions) = countByCategory rules := by
  simp [countByCategory, List.foldl_map, DenyRule.withoutExceptions]

/-- Two sets assembled alike from rules that differ only in their exceptions
differ only in those exceptions and the digest. -/
theorem Assembled.withoutExceptions_eq {scope : Scope} {level : Level} {requested : FrameworkSet}
    {gate : Gate} {merged merged' : List DenyRule} {set set' : PolicySet}
    (h : Assembled scope level requested gate merged set)
    (h' : Assembled scope level requested gate merged' set')
    (hmerged : merged.map DenyRule.withoutExceptions = merged'.map DenyRule.withoutExceptions) :
    { set with rules := set.rules.map DenyRule.withoutExceptions, digest := "" } =
      { set' with rules := set'.rules.map DenyRule.withoutExceptions, digest := "" } := by
  have hrules : set.rules.map DenyRule.withoutExceptions = set'.rules.map DenyRule.withoutExceptions := by
    rw [h.rules_eq, h'.rules_eq]
    split
    · rfl
    · exact hmerged
  have hlength : set.rules.length = set'.rules.length := by
    simpa using congrArg List.length hrules
  have hmergedLength : merged.length = merged'.length := by
    simpa using congrArg List.length hmerged
  have hsummary : set.summary = set'.summary := by
    rw [h.summary_eq, h'.summary_eq, ← countByCategory_withoutExceptions set.rules, hrules,
      countByCategory_withoutExceptions, hlength, hmergedLength]
  rcases set with ⟨_, _, _, _, _, _, _, _⟩
  rcases set' with ⟨_, _, _, _, _, _, _, _⟩
  simp only [PolicySet.mk.injEq]
  exact ⟨h.scope_eq.trans h'.scope_eq.symm, h.level_eq.trans h'.level_eq.symm,
    h.enabled_eq.trans h'.enabled_eq.symm, h.requested_eq.trans h'.requested_eq.symm,
    h.override_eq.trans h'.override_eq.symm, hrules, hsummary, trivial⟩

namespace CompilationInput

/-- The input evaluated at the instant `t`. -/
def atInstant (i : CompilationInput) (t : Instant) : CompilationInput :=
  { i with evaluationTime := some t }

variable (i : CompilationInput)

theorem checks_atInstant (t₁ t₂ : Instant) : (i.atInstant t₁).checks = (i.atInstant t₂).checks :=
  rfl

theorem compile_atInstant_eq_error_iff (t₁ t₂ : Instant) (e : PolicyError) :
    (i.atInstant t₁).compile = .error e ↔ (i.atInstant t₂).compile = .error e := by
  rw [← refusal_eq_some_iff, ← refusal_eq_some_iff, refusal_compile, refusal_compile,
    checks_atInstant i t₁ t₂]

/-- What a compile at `t` is made of: the resolved scope and gate, which read no
instant, the resolution at `t`, and the set assembled from the walk of the
tables with its principals. -/
theorem compile_atInstant_inv {t : Instant} {o : Outcome} (h : (i.atInstant t).compile = .ok o) :
    ∃ scope gate, i.scope.resolve = .ok scope ∧ Gate.ofRequest i.scope.id i.emergency = .ok gate ∧
      resolveExceptions i.scope.id i.sources gate.isOverridden t = .ok o.exceptions ∧
      Assembled scope i.context.level i.frameworks gate
        (tableWalk i.frameworks i.context o.exceptions.principals) o.policySet := by
  obtain ⟨scope, t', gate, hchecked, hgate, hexceptions, hassembled⟩ := compile_eq_ok_inv h
  obtain ⟨hscope, htime, -, -⟩ := checked_eq_ok_iff.mp hchecked
  cases htime
  rw [compiled_eq_tableWalk] at hassembled
  exact ⟨scope, gate, hscope, hgate, hexceptions, hassembled⟩

/-- Outcomes at two instants agree on everything their exception principals do
not reach. -/
theorem withoutExceptions_eq_of_compile {t₁ t₂ : Instant} {o₁ o₂ : Outcome}
    (h₁ : (i.atInstant t₁).compile = .ok o₁) (h₂ : (i.atInstant t₂).compile = .ok o₂) :
    o₁.withoutExceptions = o₂.withoutExceptions := by
  obtain ⟨scope₁, gate₁, hscope₁, hgate₁, hexceptions₁, hassembled₁⟩ := compile_atInstant_inv i h₁
  obtain ⟨scope₂, gate₂, hscope₂, hgate₂, hexceptions₂, hassembled₂⟩ := compile_atInstant_inv i h₂
  rw [hscope₁, Except.ok.injEq] at hscope₂
  rw [hgate₁, Except.ok.injEq] at hgate₂
  subst hscope₂ hgate₂
  have hset := hassembled₁.withoutExceptions_eq hassembled₂
    (tableWalk_withoutExceptions _ _ _ _)
  obtain ⟨-, principals₁, expired₁, -, hr₁⟩ := resolveExceptions_eq_ok_iff.mp hexceptions₁
  obtain ⟨-, principals₂, expired₂, -, hr₂⟩ := resolveExceptions_eq_ok_iff.mp hexceptions₂
  unfold Outcome.withoutExceptions
  rw [hset, hr₁, hr₂]

end CompilationInput

/-- The evaluation instant changes only what the temporary exemptions contribute.
At two instants `t₁ ≤ t₂` an input is refused with the same error, or compiled at
both.  Two outcomes agree on every field the exception principals do not reach.
Their principals are the same list `P`, the principals of the break-glass group,
the service accounts and the bindings at every instant, each once, followed by the
principals of the exemptions live at that instant (expiring no earlier than it)
that `P` and the earlier ones do not hold; those at `t₂` are among those at `t₁`.
The expired exemptions are the untrimmed principals of those expiring before the
instant, in order with repetitions, so those at `t₁` are a sublist of those at
`t₂`. -/
theorem compile_time_affects_only_exemptions (i : CompilationInput) {t₁ t₂ : Instant}
    (ht : t₁ ≤ t₂) :
    (∀ e, (i.atInstant t₁).compile = .error e ↔ (i.atInstant t₂).compile = .error e) ∧
    ∀ o₁ o₂, (i.atInstant t₁).compile = .ok o₁ → (i.atInstant t₂).compile = .ok o₂ →
      o₁.withoutExceptions = o₂.withoutExceptions ∧
      ∃ P X₁ X₂, o₁.exceptions.principals = P ++ X₁ ∧ o₂.exceptions.principals = P ++ X₂ ∧
        (P ++ X₁).Nodup ∧ (P ++ X₂).Nodup ∧
        (∀ t x, x ∈ P ↔ ∃ src ∈ i.sources.standing, src.resolve i.scope.id t = .ok (some x)) ∧
        (∀ x, x ∈ X₁ ↔ x ∉ P ∧
          ∃ e ∈ i.sources.exemptions, ¬ e.expiresAt < t₁ ∧ e.target i.scope.id = .ok x) ∧
        (∀ x, x ∈ X₂ ↔ x ∉ P ∧
          ∃ e ∈ i.sources.exemptions, ¬ e.expiresAt < t₂ ∧ e.target i.scope.id = .ok x) ∧
        X₂ ⊆ X₁ ∧
        o₁.exceptions.expired = (i.sources.exemptions.filter (·.expiresAt < t₁)).map (·.principal) ∧
        o₂.exceptions.expired = (i.sources.exemptions.filter (·.expiresAt < t₂)).map (·.principal) ∧
        o₁.exceptions.expired.Sublist o₂.exceptions.expired := by
  refine ⟨i.compile_atInstant_eq_error_iff t₁ t₂, fun o₁ o₂ h₁ h₂ => ?_⟩
  refine ⟨i.withoutExceptions_eq_of_compile h₁ h₂, ?_⟩
  obtain ⟨-, gate₁, -, -, hexceptions₁, -⟩ := i.compile_atInstant_inv h₁
  obtain ⟨-, gate₂, -, -, hexceptions₂, -⟩ := i.compile_atInstant_inv h₂
  obtain ⟨P, hP, X₁, hX₁, hnodup₁, hmem₁, hexpired₁⟩ := principals_of_resolveExceptions hexceptions₁
  obtain ⟨P', hP', X₂, hX₂, hnodup₂, hmem₂, hexpired₂⟩ := principals_of_resolveExceptions hexceptions₂
  have hstanding : ∀ t, resolveSources i.scope.id t i.sources.standing [] [] = .ok (P, []) :=
    fun t => (resolveSources_instant (fun _ => ExceptionSources.ne_exemption_of_mem_standing) t t₁
      [] []).trans hP
  rw [hstanding t₂, Except.ok.injEq, Prod.mk.injEq] at hP'
  obtain ⟨rfl, -⟩ := hP'
  refine ⟨P, X₁, X₂, hX₁, hX₂, hnodup₁, hnodup₂, fun t x => ?_, hmem₁, hmem₂, ?_, hexpired₁,
    hexpired₂, ?_⟩
  · have hmem := (resolved_of_resolveSources (hstanding t)).mem_iff x
    simpa using hmem
  · intro x hx
    obtain ⟨hxP, e, he, hlive, htarget⟩ := (hmem₂ x).mp hx
    exact (hmem₁ x).mpr ⟨hxP, e, he, fun hexpired => hlive (Instant.lt_of_lt_of_le hexpired ht),
      htarget⟩
  · rw [hexpired₁, hexpired₂]
    apply List.Sublist.map
    apply List.monotone_filter_right
    intro e hexpired
    simpa using Instant.lt_of_lt_of_le (by simpa using hexpired) ht

def ledgerOncallInput : CompilationInput :=
  { ledgerInput with
    sources := { ledgerInput.sources with
      exemptions := [⟨"oncall@x.com", ⟨100, 0⟩, "incident"⟩] } }

theorem ledger_oncall_expires :
    Instant.epoch ≤ ⟨200, 0⟩ ∧
    ∃ o₁ o₂, (ledgerOncallInput.atInstant Instant.epoch).compile = .ok o₁ ∧
      (ledgerOncallInput.atInstant ⟨200, 0⟩).compile = .ok o₂ ∧
      o₁.withoutExceptions = o₂.withoutExceptions ∧
      ∃ P X₁ X₂, o₁.exceptions.principals = P ++ X₁ ∧ o₂.exceptions.principals = P ++ X₂ ∧
        "principal://goog/subject/oncall@x.com" ∈ X₁ ∧ "principal://goog/subject/oncall@x.com" ∉ X₂ ∧
        o₁.exceptions.expired = [] ∧ o₂.exceptions.expired = ["oncall@x.com"] := by
  have ht : Instant.epoch ≤ ⟨200, 0⟩ := by decide
  obtain ⟨o₁, h₁⟩ : ∃ o, (ledgerOncallInput.atInstant Instant.epoch).compile = .ok o :=
    refusal_eq_none_iff.mp (by decide +kernel)
  obtain ⟨o₂, h₂⟩ : ∃ o, (ledgerOncallInput.atInstant ⟨200, 0⟩).compile = .ok o :=
    refusal_eq_none_iff.mp (by decide +kernel)
  obtain ⟨hsame, P, X₁, X₂, hP₁, hP₂, -, -, hP, hX₁, hX₂, -, hexpired₁, hexpired₂, -⟩ :=
    (compile_time_affects_only_exemptions ledgerOncallInput ht).2 o₁ o₂ h₁ h₂
  have hnotP : "principal://goog/subject/oncall@x.com" ∉ P := by
    rw [hP Instant.epoch]
    decide +kernel
  refine ⟨ht, o₁, o₂, h₁, h₂, hsame, P, X₁, X₂, hP₁, hP₂, (hX₁ _).mpr ⟨hnotP, by decide +kernel⟩,
    ?_, ?_, ?_⟩
  · rw [hX₂]
    rintro ⟨-, hlive⟩
    exact absurd hlive (by decide +kernel)
  · rw [hexpired₁]
    decide +kernel
  · rw [hexpired₂]
    decide +kernel

end DenyPolicy
