import DenyPolicy.Proofs.DryRun
import DenyPolicy.Proofs.Merging
import DenyPolicy.Proofs.Utf8Order
import Mathlib.Logic.Function.Basic
/-!
# A plan is the diff of two name-to-rule maps

A list of rules stands for a map from names to rules, the last rule of a name
standing for it (`ruleMap`); the lists may repeat names.  Planning lists each
name of either set once, in byte order, and says what becomes of it: created
when only the next set has it, deleted when only the previous one has it, kept
when both map it to the same rule and updated otherwise.

Carrying out the changes one after another on the previous map, creating and
updating from the next map and deleting what is deleted, touches each name once
(`foldl_carryOut`), and each change leaves its name as the next map has it, so
the changes take the previous map to the next one.  The main statement is
`plan_is_keyed_diff`.
-/

namespace DenyPolicy

/-! ## The name-to-rule map of a list -/

/-- The rule a list holds under a name: the last rule of that name, the first met
reading the list backwards. -/
def ruleMap (rules : List DenyRule) (name : String) : Option DenyRule :=
  rules.reverse.find? (·.name = name)

theorem foldl_lastRule {name : String} : ∀ (rules : List DenyRule) (acc : Option DenyRule),
    rules.foldl (fun acc r => if r.name = name then some r else acc) acc = (ruleMap rules name).or acc
  | [], acc => by simp [ruleMap]
  | r :: rest, acc => by
      rw [List.foldl_cons, foldl_lastRule rest]
      by_cases hr : r.name = name <;> simp [ruleMap, List.find?_append, hr]

theorem lastRule?_eq_ruleMap (rules : List DenyRule) (name : String) :
    lastRule? rules name = ruleMap rules name := by
  simp [lastRule?, foldl_lastRule]

theorem ruleMap_eq_none_iff {rules : List DenyRule} {name : String} :
    ruleMap rules name = none ↔ name ∉ rules.map (·.name) := by
  simp [ruleMap]

theorem ruleMap_isSome_iff {rules : List DenyRule} {name : String} :
    (ruleMap rules name).isSome ↔ name ∈ rules.map (·.name) := by
  rw [← not_iff_not, Option.not_isSome_iff_eq_none, ruleMap_eq_none_iff]

/-! ## Names in byte order -/

namespace StringSet

theorem pairwise_insert {s : String} :
    ∀ {xs : List String}, xs.Pairwise (· < ·) → (StringSet.insert s xs).Pairwise (· < ·)
  | [], _ => by simp [StringSet.insert]
  | t :: rest, h => by
      unfold StringSet.insert
      by_cases hlt : s < t
      · simp only [hlt, if_true]
        refine List.Pairwise.cons (fun u hu => ?_) h
        rcases List.mem_cons.mp hu with rfl | hu
        · exact hlt
        · exact String.lt_trans hlt (List.rel_of_pairwise_cons h hu)
      · by_cases heq : s = t
        · simpa [heq] using h
        · have hts : t < s := string_lt_of_not_lt_of_ne hlt heq
          simp only [hlt, heq, if_false]
          refine List.Pairwise.cons (fun u hu => ?_) (pairwise_insert (List.Pairwise.of_cons h))
          rcases mem_insert.mp hu with rfl | hu
          · exact hts
          · exact List.rel_of_pairwise_cons h hu

theorem pairwise_foldl_insert : ∀ {xs acc : List String}, acc.Pairwise (· < ·) →
    (xs.foldl (fun acc x => StringSet.insert x acc) acc).Pairwise (· < ·)
  | [], _, h => h
  | x :: xs, _, h => by
      rw [List.foldl_cons]
      exact pairwise_foldl_insert (pairwise_insert h)

theorem pairwise_ofList (xs : List String) : (ofList xs).Pairwise (· < ·) :=
  pairwise_foldl_insert List.Pairwise.nil

end StringSet

/-- The names a plan lists are in byte order: a name's UTF-8 bytes precede those
of every later name. -/
theorem ruleNameSet_byteOrder (before after : List DenyRule) :
    (ruleNameSet before after).Pairwise (fun a b => Text.bytes a < Text.bytes b) :=
  (StringSet.pairwise_ofList _).imp fun h => (Text.bytes_lt_iff _ _).mpr h

theorem mem_ruleNameSet {before after : List DenyRule} {name : String} :
    name ∈ ruleNameSet before after ↔ name ∈ before.map (·.name) ∨ name ∈ after.map (·.name) := by
  simp [ruleNameSet, StringSet.mem_ofList]

theorem ruleNameSet_nodup (before after : List DenyRule) : (ruleNameSet before after).Nodup :=
  (StringSet.pairwise_ofList _).imp String.ne_of_lt

theorem ruleMap_eq_of_not_mem_ruleNameSet {before after : List DenyRule} {name : String}
    (h : name ∉ ruleNameSet before after) : ruleMap before name = ruleMap after name := by
  rw [mem_ruleNameSet, not_or] at h
  rw [ruleMap_eq_none_iff.mpr h.1, ruleMap_eq_none_iff.mpr h.2]

/-! ## The change of one name -/

section Change

variable {before after : List DenyRule} {name : String}

@[simp] theorem ruleName_changeOf : (changeOf before after name).ruleName = name := by
  unfold changeOf
  split
  · rfl
  · rfl
  · rfl

theorem action_changeOf :
    (changeOf before after name).action =
      match ruleMap before name, ruleMap after name with
      | none, _ => .create
      | some _, none => .delete
      | some old, some new => if old = new then .unchanged else .update := by
  rw [changeOf, lastRule?_eq_ruleMap, lastRule?_eq_ruleMap]
  cases ruleMap before name <;> cases ruleMap after name <;> rfl

/-- The four actions, for a name of either list: created when only the next list
has it, deleted when only the previous one has it, kept when both hold the same
last rule, and updated when their last rules differ. -/
theorem action_changeOf_iff (h : name ∈ before.map (·.name) ∨ name ∈ after.map (·.name)) :
    ((changeOf before after name).action = .create ↔
        name ∉ before.map (·.name) ∧ name ∈ after.map (·.name)) ∧
    ((changeOf before after name).action = .delete ↔
        name ∈ before.map (·.name) ∧ name ∉ after.map (·.name)) ∧
    ((changeOf before after name).action = .unchanged ↔
        ∃ r, ruleMap before name = some r ∧ ruleMap after name = some r) ∧
    ((changeOf before after name).action = .update ↔
        ∃ r r', ruleMap before name = some r ∧ ruleMap after name = some r' ∧ r ≠ r') := by
  rw [action_changeOf]
  have hb := @ruleMap_eq_none_iff before name
  have ha := @ruleMap_eq_none_iff after name
  cases hbefore : ruleMap before name with
  | none =>
    have hmem : name ∈ after.map (·.name) := h.resolve_left (hb.mp hbefore)
    simp [hb.mp hbefore, hmem]
  | some old =>
    have hmem : name ∈ before.map (·.name) := ruleMap_isSome_iff.mp (by simp [hbefore])
    cases hafter : ruleMap after name with
    | none => simp [hmem, ha.mp hafter]
    | some new =>
      have hmem' : name ∈ after.map (·.name) := ruleMap_isSome_iff.mp (by simp [hafter])
      by_cases hsame : old = new
      · subst hsame
        simp [hmem, hmem']
      · simp [hsame, Ne.symm hsame, hmem, hmem']

end Change

/-! ## Carrying out a plan -/

/-- The map of rules after carrying out one change: a created or updated rule is
taken from `next`, a deleted one is removed, and a kept one stays. -/
def Change.carryOut (next m : String → Option DenyRule) (c : Change) : String → Option DenyRule :=
  match c.action with
  | .create | .update => Function.update m c.ruleName (next c.ruleName)
  | .delete => Function.update m c.ruleName none
  | .unchanged => m

def Change.outcome (next : String → Option DenyRule) (c : Change) (old : Option DenyRule) :
    Option DenyRule :=
  match c.action with
  | .create | .update => next c.ruleName
  | .delete => none
  | .unchanged => old

theorem Change.carryOut_eq (next m : String → Option DenyRule) (c : Change) :
    c.carryOut next m = Function.update m c.ruleName (c.outcome next (m c.ruleName)) := by
  unfold carryOut outcome
  split <;> simp

/-- Carrying out changes of distinct names, each of which leaves its name as
`next` has it, gives `next` on their names and leaves every other name alone. -/
theorem foldl_carryOut (next : String → Option DenyRule) :
    ∀ (cs : List Change) (m : String → Option DenyRule), (cs.map (·.ruleName)).Nodup →
      (∀ c ∈ cs, c.outcome next (m c.ruleName) = next c.ruleName) →
      ∀ x, cs.foldl (Change.carryOut next) m x = if x ∈ cs.map (·.ruleName) then next x else m x
  | [], m, _, _, x => by simp
  | c :: cs, m, hnodup, hright, x => by
      rw [List.map_cons, List.nodup_cons] at hnodup
      obtain ⟨hfresh, hnodup'⟩ := hnodup
      rw [List.foldl_cons]
      have hright' : ∀ c' ∈ cs, c'.outcome next (c.carryOut next m c'.ruleName) = next c'.ruleName := by
        intro c' hc'
        have hne : c'.ruleName ≠ c.ruleName := fun h => hfresh (h ▸ List.mem_map_of_mem hc')
        rw [Change.carryOut_eq, Function.update_of_ne hne]
        exact hright c' (List.mem_cons_of_mem c hc')
      rw [foldl_carryOut next cs _ hnodup' hright' x, Change.carryOut_eq]
      by_cases hx : x = c.ruleName
      · subst hx
        simp [hright c List.mem_cons_self]
      · by_cases hmem : x ∈ cs.map (·.ruleName) <;> simp [hmem, hx]

/-! ## Plans -/

theorem plan_eq_error_iff {prev : Option PolicySet} {next : PolicySet} {e : PolicyError} :
    plan prev next = .error e ↔ ∃ p, prev = some p ∧
      p.scope.canonicalAddress ≠ next.scope.canonicalAddress ∧
      e = .validation next.scope.id "scope" ("previous manifest targets " ++ p.scope.canonicalAddress ++
        " but the new one targets " ++ next.scope.canonicalAddress) := by
  cases prev with
  | none => simp [plan, pure_eq_ok]
  | some p =>
    by_cases haddr : p.scope.canonicalAddress = next.scope.canonicalAddress
    · simp [plan_of_address haddr, haddr]
    · simp [plan, haddr, Ne.symm haddr, eq_comm]

/-- The rules a plan starts from: those of the previous set, or none. -/
def previousRules (prev : Option PolicySet) : List DenyRule := (prev.map PolicySet.rules).getD []

theorem plan_eq_ok_iff {prev : Option PolicySet} {next : PolicySet} {pl : Plan} :
    plan prev next = .ok pl ↔
      (∀ p, prev = some p → p.scope.canonicalAddress = next.scope.canonicalAddress) ∧
      pl = ⟨next.scope, next.scope.policyParent,
        (ruleNameSet (previousRules prev) next.rules).map (changeOf (previousRules prev) next.rules)⟩ := by
  cases prev with
  | none => simp [plan, previousRules, pure_eq_ok, eq_comm]
  | some p =>
    by_cases haddr : p.scope.canonicalAddress = next.scope.canonicalAddress
    · simp [plan_of_address haddr, previousRules, haddr, eq_comm]
    · simp [plan, haddr]

theorem ruleNames_changes (before after : List DenyRule) :
    ((ruleNameSet before after).map (changeOf before after)).map (·.ruleName) = ruleNameSet before after := by
  simp [List.map_map, Function.comp_def]

theorem outcome_changeOf (before after : List DenyRule) (name : String) :
    (changeOf before after name).outcome (ruleMap after) (ruleMap before name) = ruleMap after name := by
  rw [Change.outcome, action_changeOf, ruleName_changeOf]
  cases hb : ruleMap before name with
  | none => rfl
  | some old =>
    cases ha : ruleMap after name with
    | none => rfl
    | some new =>
      by_cases hsame : old = new <;> simp [hsame]

/-- Carried out on the map of the previous rules, the changes of a plan give the
map of the next. -/
theorem plan_changes_carryOut (before after : List DenyRule) :
    ((ruleNameSet before after).map (changeOf before after)).foldl
      (Change.carryOut (ruleMap after)) (ruleMap before) = ruleMap after := by
  have hnodup := ruleNames_changes before after ▸ ruleNameSet_nodup before after
  have hright : ∀ c ∈ (ruleNameSet before after).map (changeOf before after),
      c.outcome (ruleMap after) (ruleMap before c.ruleName) = ruleMap after c.ruleName := by
    intro c hc
    obtain ⟨name, -, rfl⟩ := List.mem_map.mp hc
    rw [ruleName_changeOf]
    exact outcome_changeOf before after name
  funext x
  rw [foldl_carryOut _ _ _ hnodup hright x, ruleNames_changes]
  split
  · rfl
  · rename_i hx
    exact ruleMap_eq_of_not_mem_ruleNameSet hx

/-- A plan has no change to make exactly when the two maps agree. -/
theorem hasChanges_eq_false_iff (before after : List DenyRule) (scope : Scope) (parent : String) :
    (Plan.mk scope parent ((ruleNameSet before after).map (changeOf before after))).hasChanges = false ↔
      ruleMap before = ruleMap after := by
  simp only [Plan.hasChanges, List.any_eq_false, List.mem_map, ne_eq, decide_eq_true_eq,
    not_not, forall_exists_index, and_imp, forall_apply_eq_imp_iff₂]
  constructor
  · intro hkept
    funext x
    by_cases hx : x ∈ ruleNameSet before after
    · obtain ⟨r, hb, ha⟩ := ((action_changeOf_iff (mem_ruleNameSet.mp hx)).2.2.1).mp (hkept x hx)
      rw [hb, ha]
    · exact ruleMap_eq_of_not_mem_ruleNameSet hx
  · intro hsame x hx
    have hsome : (ruleMap before x).isSome := by
      rcases mem_ruleNameSet.mp hx with h | h
      · exact ruleMap_isSome_iff.mpr h
      · exact hsame ▸ ruleMap_isSome_iff.mpr h
    obtain ⟨r, hr⟩ := Option.isSome_iff_exists.mp hsome
    exact ((action_changeOf_iff (mem_ruleNameSet.mp hx)).2.2.1).mpr ⟨r, hr, hsame ▸ hr⟩

/-- Planning is a diff of name-to-rule maps.  A previous set is refused, with a
validation error on the field `scope`, exactly when it targets another address
than the next.  Otherwise the plan is for the next set's scope and parent, and
lists each name of either set once, in byte order; each change says what the
name's last rules in the two sets call for; carried out on the previous map the
changes give the next map; and the plan has no change exactly when the two maps
agree. -/
theorem plan_is_keyed_diff (prev : Option PolicySet) (next : PolicySet) :
    (∀ e, plan prev next = .error e ↔ ∃ p, prev = some p ∧
        p.scope.canonicalAddress ≠ next.scope.canonicalAddress ∧
        e = .validation next.scope.id "scope" ("previous manifest targets " ++ p.scope.canonicalAddress ++
          " but the new one targets " ++ next.scope.canonicalAddress)) ∧
    ∀ pl, plan prev next = .ok pl →
      pl.scope = next.scope ∧ pl.policyParent = next.scope.policyParent ∧
      (pl.changes.map (·.ruleName)).Pairwise (fun a b => Text.bytes a < Text.bytes b) ∧
      (∀ name, name ∈ pl.changes.map (·.ruleName) ↔
        name ∈ (previousRules prev).map (·.name) ∨ name ∈ next.rules.map (·.name)) ∧
      (∀ c ∈ pl.changes,
        (c.action = .create ↔ c.ruleName ∉ (previousRules prev).map (·.name) ∧ c.ruleName ∈ next.rules.map (·.name)) ∧
        (c.action = .delete ↔ c.ruleName ∈ (previousRules prev).map (·.name) ∧ c.ruleName ∉ next.rules.map (·.name)) ∧
        (c.action = .unchanged ↔
          ∃ r, ruleMap (previousRules prev) c.ruleName = some r ∧ ruleMap next.rules c.ruleName = some r) ∧
        (c.action = .update ↔ ∃ r r', ruleMap (previousRules prev) c.ruleName = some r ∧
          ruleMap next.rules c.ruleName = some r' ∧ r ≠ r')) ∧
      pl.changes.foldl (Change.carryOut (ruleMap next.rules)) (ruleMap (previousRules prev)) = ruleMap next.rules ∧
      (pl.hasChanges = false ↔ ruleMap (previousRules prev) = ruleMap next.rules) := by
  refine ⟨fun e => plan_eq_error_iff, ?_⟩
  intro pl hpl
  obtain ⟨-, rfl⟩ := plan_eq_ok_iff.mp hpl
  dsimp only
  rw [ruleNames_changes]
  refine ⟨rfl, rfl, ruleNameSet_byteOrder _ _, fun name => mem_ruleNameSet, ?_,
    plan_changes_carryOut _ _, hasChanges_eq_false_iff _ _ _ _⟩
  intro c hc
  obtain ⟨name, hname, rfl⟩ := List.mem_map.mp hc
  simpa using action_changeOf_iff (mem_ruleNameSet.mp hname)

/-- The ledger's rules before a change: `deny-delete` is then dropped,
`deny-export` denies another permission, `deny-iam` is kept and `deny-public` is
added. -/
def ledgerBefore : PolicySet :=
  projectManifest "ledger-prod" [denyRule "deny-export" "bigquery.tables.export",
    denyRule "deny-delete" "storage.buckets.delete", denyRule "deny-iam" "resourcemanager.projects.setIamPolicy"]

def ledgerAfter : PolicySet :=
  projectManifest "ledger-prod" [denyRule "deny-public" "storage.objects.get",
    denyRule "deny-iam" "resourcemanager.projects.setIamPolicy", denyRule "deny-export" "bigquery.tables.getData"]

theorem ledger_plan_is_keyed_diff :
    (∃ pl, plan (some ledgerBefore) ledgerAfter = .ok pl ∧
      pl.changes = [⟨"deny-delete", .delete⟩, ⟨"deny-export", .update⟩, ⟨"deny-iam", .unchanged⟩,
        ⟨"deny-public", .create⟩] ∧
      (pl.changes.map (·.ruleName)).Pairwise (fun a b => Text.bytes a < Text.bytes b) ∧
      pl.changes.foldl (Change.carryOut (ruleMap ledgerAfter.rules)) (ruleMap ledgerBefore.rules) =
        ruleMap ledgerAfter.rules) ∧
    plan (some billingRulesManifest) ledgerAfter = .error (.validation "ledger-prod" "scope"
      ("previous manifest targets cloudresourcemanager.googleapis.com/projects/billing-prod" ++
        " but the new one targets cloudresourcemanager.googleapis.com/projects/ledger-prod")) := by
  obtain ⟨pl, hpl, hchanges⟩ : ∃ pl, plan (some ledgerBefore) ledgerAfter = .ok pl ∧
      pl.changes = [⟨"deny-delete", .delete⟩, ⟨"deny-export", .update⟩, ⟨"deny-iam", .unchanged⟩,
        ⟨"deny-public", .create⟩] :=
    ⟨_, rfl, by decide +kernel⟩
  obtain ⟨-, -, hsorted, -, -, hcarry, -⟩ := (plan_is_keyed_diff _ _).2 pl hpl
  exact ⟨⟨pl, hpl, hchanges, hsorted, hcarry⟩,
    ((plan_is_keyed_diff _ _).1 _).mpr ⟨billingRulesManifest, rfl, by decide, rfl⟩⟩

end DenyPolicy
