import DenyPolicy.Proofs.Assembly
import Mathlib.Data.List.Flatten
/-!
# The rules a compilation emits

Compiling walks the table of each enabled framework, in framework order, and
then the shared table when some framework is enabled.  Each control whose
activation holds emits one rule, named by its table's slug and its own id, and
a control that denies the approver group emits only when a group is set.

The names the tables can give are pairwise distinct (`Control.ruleNames_nodup`),
so the rules of any walk are too, and merging them drops and refuses nothing
(`mergeRules_compiled`).  The main statement, `compile_rules_eq_tableWalk`, says
that every enforcing policy set carries exactly the rules of that walk, each
described field by field by `walkRule`.
-/

namespace DenyPolicy

/-- A `filterMap` that can only keep `g a` of each `a` keeps a sublist of the
`map` by `g`. -/
theorem filterMap_sublist_map {α β : Type} {f : α → Option β} {g : α → β} :
    ∀ {l : List α}, (∀ a ∈ l, ∀ b, f a = some b → b = g a) →
      (l.filterMap f).Sublist (l.map g)
  | [], _ => List.Sublist.slnil
  | a :: rest, h => by
      have hrest : (rest.filterMap f).Sublist (rest.map g) :=
        filterMap_sublist_map fun x hx => h x (List.mem_cons_of_mem a hx)
      cases ha : f a with
      | none => simpa [List.filterMap_cons_none ha] using hrest.cons (g a)
      | some b =>
          rw [List.filterMap_cons_some ha, h a List.mem_cons_self b ha, List.map_cons]
          exact hrest.cons_cons (g a)

theorem FrameworkSet.isEmpty_eq_true_iff (s : FrameworkSet) :
    s.isEmpty = true ↔ s = FrameworkSet.empty := by
  rcases s with ⟨_ | _, _ | _, _ | _, _ | _, _ | _⟩ <;> decide

namespace Control

/-- Every name a rule of the tables can bear: the names of each framework's
table in framework order, then those of the shared table. -/
def ruleNames : List String :=
  Framework.all.flatMap (fun f => (table f).map fun c => ruleName (.framework f) c.id) ++
    shared.map fun c => ruleName .shared c.id

theorem ruleNames_nodup : ruleNames.Nodup := by decide

variable {cat : RuleCategory} {ctx : Context} {exceptions : List String} {c : Control}
  {r : DenyRule}

/-- A control emits a rule exactly when it is active and has someone to deny. -/
theorem instantiate_eq_some_iff : c.instantiate cat ctx exceptions = some r ↔
    c.activation.holds ctx = true ∧ ∃ denied, deniedPrincipal? ctx c.denied = some denied ∧
      r = { name := ruleName cat c.id, category := cat, controlId := c.id,
            description := c.description, deniedPermissions := StringSet.ofList c.permissions,
            deniedPrincipals := [denied], exceptionPrincipals := exceptions,
            condition := c.condition.map (·.render ctx) } := by
  unfold instantiate
  by_cases hholds : c.activation.holds ctx = true
  · simp only [hholds, if_true, Option.map_eq_some_iff, true_and]
    constructor
    · rintro ⟨denied, hdenied, rfl⟩
      exact ⟨denied, hdenied, rfl⟩
    · rintro ⟨denied, hdenied, rfl⟩
      exact ⟨denied, hdenied, rfl⟩
  · simp [hholds]

end Control

section Compiled

variable (enabled : FrameworkSet) (ctx : Context) (exceptions : List String)

theorem compileTable_names_sublist (cat : RuleCategory) (table : List Control) :
    ((compileTable cat table ctx exceptions).map (·.name)).Sublist
      (table.map fun c => ruleName cat c.id) := by
  rw [compileTable, List.map_filterMap]
  apply filterMap_sublist_map
  intro c _ name hname
  obtain ⟨r, hr, rfl⟩ := Option.map_eq_some_iff.mp hname
  obtain ⟨-, -, -, rfl⟩ := Control.instantiate_eq_some_iff.mp hr
  rfl

/-- The names of the rules of a walk are among the names the tables can give, in
the same order. -/
theorem compiled_names_sublist :
    ((frameworkRules enabled ctx exceptions ++ sharedRules enabled ctx exceptions).map
      (·.name)).Sublist Control.ruleNames := by
  rw [List.map_append, Control.ruleNames]
  apply List.Sublist.append
  · rw [frameworkRules, List.map_flatMap]
    exact ((List.filter_sublist).flatMap _).trans
      (List.Sublist.flatMap_right _ fun f _ => compileTable_names_sublist ctx exceptions _ _)
  · unfold sharedRules
    split
    · exact List.nil_sublist _
    · exact compileTable_names_sublist ctx exceptions _ _

theorem compiled_names_nodup :
    ((frameworkRules enabled ctx exceptions ++ sharedRules enabled ctx exceptions).map
      (·.name)).Nodup :=
  Control.ruleNames_nodup.sublist (compiled_names_sublist enabled ctx exceptions)

/-- Merging the rules of a walk returns them unchanged. -/
theorem mergeRules_compiled (scope : Scope) :
    mergeRules scope [] (frameworkRules enabled ctx exceptions ++ sharedRules enabled ctx exceptions) =
      .ok (frameworkRules enabled ctx exceptions ++ sharedRules enabled ctx exceptions) :=
  mergeRules_of_nodup scope _ [] (by simpa using compiled_names_nodup enabled ctx exceptions)

/-- Every rule of a walk exempts the walk's exception principals. -/
theorem exceptionPrincipals_of_mem_compiled {r : DenyRule}
    (hr : r ∈ frameworkRules enabled ctx exceptions ++ sharedRules enabled ctx exceptions) :
    r.exceptionPrincipals = exceptions := by
  have hcompiled : ∀ cat table, r ∈ compileTable cat table ctx exceptions →
      r.exceptionPrincipals = exceptions := by
    intro cat table hmem
    obtain ⟨c, -, hc⟩ := List.mem_filterMap.mp hmem
    obtain ⟨-, -, -, rfl⟩ := Control.instantiate_eq_some_iff.mp hc
    rfl
  rcases List.mem_append.mp hr with hfw | hsh
  · obtain ⟨f, -, hf⟩ := List.mem_flatMap.mp hfw
    exact hcompiled _ _ hf
  · unfold sharedRules at hsh
    split at hsh
    · simp at hsh
    · exact hcompiled _ _ hsh

end Compiled

/-! ## The table walk -/

/-- The rule that walking a table emits for a control.  None when the control's
activation fails, or when it denies the approver group and no group is set;
otherwise the rule named `<slug>-<id>` that denies the control's permissions, as
a set, to everyone or to the trimmed approver group, exempts `exceptions`, and
carries the control's template filled in from the context. -/
def walkRule (cat : RuleCategory) (ctx : Context) (exceptions : List String) (c : Control) :
    Option DenyRule :=
  if c.activation.holds ctx = true then
    let rule (denied : String) : DenyRule :=
      { name := cat.slug ++ "-" ++ c.id, category := cat, controlId := c.id,
        description := c.description, deniedPermissions := StringSet.ofList c.permissions,
        deniedPrincipals := [denied], exceptionPrincipals := exceptions,
        condition := c.condition.map (·.render ctx) }
    match c.denied, ctx.overrides.approverGroup with
    | .everyone, _ => some (rule "principalSet://goog/public:all")
    | .approverGroup, some g => some (rule ("principalSet://goog/group/" ++ Text.trim g))
    | .approverGroup, none => none
  else none

/-- The tables walked for a set of enabled frameworks, each with the category of
its rules: the enabled frameworks' in framework order, then the shared table
unless the set is empty. -/
def walkedTables (enabled : FrameworkSet) : List (RuleCategory × List Control) :=
  (Framework.all.filter enabled.mem).map (fun f => (.framework f, Control.table f)) ++
    if enabled = FrameworkSet.empty then [] else [(.shared, Control.shared)]

/-- The rules of the walk, table after table and control after control. -/
def tableWalk (enabled : FrameworkSet) (ctx : Context) (exceptions : List String) :
    List DenyRule :=
  (walkedTables enabled).flatMap fun t => t.2.filterMap (walkRule t.1 ctx exceptions)

theorem Control.instantiate_eq_walkRule (cat : RuleCategory) (ctx : Context)
    (exceptions : List String) (c : Control) :
    c.instantiate cat ctx exceptions = walkRule cat ctx exceptions c := by
  unfold instantiate walkRule
  by_cases hholds : c.activation.holds ctx = true
  · cases hdenied : c.denied <;> cases hgroup : ctx.overrides.approverGroup <;>
      simp [hholds, hgroup, deniedPrincipal?, ruleName, allPrincipals]
  · simp [hholds]

theorem compiled_eq_tableWalk (enabled : FrameworkSet) (ctx : Context) (exceptions : List String) :
    frameworkRules enabled ctx exceptions ++ sharedRules enabled ctx exceptions =
      tableWalk enabled ctx exceptions := by
  have htable : ∀ cat table, compileTable cat table ctx exceptions =
      table.filterMap (walkRule cat ctx exceptions) := by
    intro cat table
    rw [compileTable]
    congr 1
    funext c
    exact Control.instantiate_eq_walkRule cat ctx exceptions c
  by_cases hempty : enabled = FrameworkSet.empty
  · have hshared : sharedRules enabled ctx exceptions = [] := by
      simp [sharedRules, (FrameworkSet.isEmpty_eq_true_iff enabled).mpr hempty]
    rw [hshared]
    simp [tableWalk, walkedTables, hempty, frameworkRules, FrameworkSet.toList, htable,
      List.flatMap_map]
  · have hshared : sharedRules enabled ctx exceptions =
        compileTable .shared Control.shared ctx exceptions := by
      have hne : enabled.isEmpty = false := by
        simpa [Bool.not_eq_true] using mt (FrameworkSet.isEmpty_eq_true_iff enabled).mp hempty
      simp [sharedRules, hne]
    simp [tableWalk, walkedTables, hempty, hshared, frameworkRules, FrameworkSet.toList, htable,
      List.flatMap_map]

/-- What a compiled outcome is made of: the checked scope and instant, the gate
the request opens, the resolved exceptions, and the set assembled from the walk's
rules, which merging left unchanged. -/
theorem compile_eq_ok_inv {i : CompilationInput} {o : Outcome} (h : i.compile = .ok o) :
    ∃ scope t gate, i.checked = .ok (scope, t) ∧ Gate.ofRequest i.scope.id i.emergency = .ok gate ∧
      resolveExceptions i.scope.id i.sources gate.isOverridden t = .ok o.exceptions ∧
      Assembled scope i.context.level i.frameworks gate
        (frameworkRules i.frameworks i.context o.exceptions.principals ++
          sharedRules i.frameworks i.context o.exceptions.principals) o.policySet := by
  obtain ⟨scope, t, hchecked, hrelease⟩ := CompilationInput.compile_eq_ok_iff.mp h
  obtain ⟨gate, exceptions, set, hgate, hexceptions, hset, rfl⟩ :=
    CompilationInput.release_eq_ok_iff.mp hrelease
  obtain ⟨merged, hmerged, hassembled⟩ := assembled_of_assemble hset
  rw [mergeRules_compiled, Except.ok.injEq] at hmerged
  have hid := (CompilationInput.checked_eq_ok_iff.mp hchecked).1
  rw [Scope.id_of_resolve hid] at hgate hexceptions
  exact ⟨scope, t, gate, hchecked, hgate, hexceptions, hmerged ▸ hassembled⟩

theorem active_of_compile {i : CompilationInput} {o : Outcome} (h : i.compile = .ok o) :
    o.policySet.emergencyOverride.active = i.emergency.active := by
  obtain ⟨_, _, gate, -, hgate, -, hassembled⟩ := compile_eq_ok_inv h
  rw [hassembled.override_eq, OverrideRecord.ofGate, Gate.isOverridden_of_ofRequest hgate]

theorem ruleCount_of_compile {i : CompilationInput} {o : Outcome} (h : i.compile = .ok o) :
    o.policySet.summary.ruleCount = o.policySet.rules.length := by
  obtain ⟨_, _, _, -, -, -, hassembled⟩ := compile_eq_ok_inv h
  exact hassembled.ruleCount_eq

theorem rules_of_compile_enforcing {i : CompilationInput} {o : Outcome} (h : i.compile = .ok o)
    (henforcing : o.policySet.emergencyOverride.active = false) :
    o.policySet.rules = frameworkRules i.frameworks i.context o.exceptions.principals ++
      sharedRules i.frameworks i.context o.exceptions.principals := by
  obtain ⟨_, _, gate, -, hgate, -, hassembled⟩ := compile_eq_ok_inv h
  have hoverridden : gate.isOverridden = false := by
    rw [Gate.isOverridden_of_ofRequest hgate, ← active_of_compile h, henforcing]
  simpa [hoverridden] using hassembled.rules_eq

/-- Every enforcing policy set carries exactly the rules of the table walk over
the input's frameworks, in the context of the input's level, classification,
parameters and overrides, exempting the outcome's exception principals; and no
two of its rules share a name. -/
theorem compile_rules_eq_tableWalk {i : CompilationInput} {o : Outcome}
    (h : i.compile = .ok o) (henforcing : o.policySet.emergencyOverride.active = false) :
    o.policySet.rules =
        tableWalk i.frameworks
          ⟨Level.compute i.frameworks i.classification, i.classification, i.params, i.overrides⟩
          o.exceptions.principals ∧
      (o.policySet.rules.map (·.name)).Nodup := by
  have hrules := rules_of_compile_enforcing h henforcing
  refine ⟨?_, ?_⟩
  · rw [hrules, compiled_eq_tableWalk]
    rfl
  · rw [hrules]
    exact compiled_names_nodup _ _ _

/-- A project under ISO 27001 that holds internal data and names its break-glass
group. -/
def ledgerInput : CompilationInput :=
  { scope := ⟨.project, "ledger-prod"⟩, frameworks := { iso27001 := true },
    classification := .internalData, sources := { breakGlassGroup := "sec@x.com" },
    evaluationTime := some Instant.epoch }

theorem ledger_rules_eq_tableWalk :
    ∃ o, ledgerInput.compile = .ok o ∧ o.policySet.emergencyOverride.active = false ∧
      o.policySet.rules =
          tableWalk ledgerInput.frameworks
            ⟨Level.compute ledgerInput.frameworks ledgerInput.classification,
              ledgerInput.classification, ledgerInput.params, ledgerInput.overrides⟩
            o.exceptions.principals ∧
        (o.policySet.rules.map (·.name)).Nodup :=
  ⟨_, rfl, rfl, compile_rules_eq_tableWalk rfl rfl⟩

end DenyPolicy
