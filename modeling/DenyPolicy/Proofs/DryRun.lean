import DenyPolicy.Plan
import DenyPolicy.Proofs.Stages
/-!
# Dry runs over a sequence of sets

A dry run remembers, for each canonical address, the set applied last to it,
and plans each new set against the one it remembers for the set's address.
What it remembers for an address always targets that address, so the planner's
scope check never fires: every application succeeds, and its report lists the
plan's changes, each carried out.

`DryRun.run` applies sets one after another.  A run depends on the dry run it
starts from only through what that remembers (`DryRun.run_congr`), and it
leaves the last set of each address remembered (`DryRun.get?_run`).  The main
statement, `dryRun_replays_last_applied`, follows a run from a fresh dry run:
each report is the plan against the last earlier set for the same address, a set
applied again with nothing else for its address in between changes nothing, and
two neighbouring sets for different addresses can be swapped without changing
their reports or what is remembered at the end.
-/

namespace DenyPolicy

/-! ## Plans -/

namespace StringSet

theorem mem_insert {s t : String} : ∀ {xs : List String}, t ∈ StringSet.insert s xs ↔ t = s ∨ t ∈ xs
  | [] => by simp [StringSet.insert]
  | u :: rest => by
      unfold StringSet.insert
      by_cases hlt : s < u
      · simp [hlt]
      · by_cases heq : s = u
        · subst heq
          simp
        · simp only [hlt, heq, if_false, List.mem_cons, mem_insert]
          exact or_left_comm

theorem mem_foldl_insert {t : String} : ∀ {xs acc : List String},
    t ∈ xs.foldl (fun acc x => StringSet.insert x acc) acc ↔ t ∈ acc ∨ t ∈ xs
  | [], acc => by simp
  | x :: xs, acc => by
      rw [List.foldl_cons, mem_foldl_insert, mem_insert, List.mem_cons, @or_comm (t = x), or_assoc]

theorem mem_ofList {t : String} {xs : List String} : t ∈ ofList xs ↔ t ∈ xs := by
  simp [ofList, mem_foldl_insert]

end StringSet

theorem isSome_foldl_lastRule {name : String} : ∀ {rules : List DenyRule} {acc : Option DenyRule},
    (acc.isSome ∨ name ∈ rules.map (·.name)) →
      (rules.foldl (fun acc r => if r.name = name then some r else acc) acc).isSome
  | [], acc, h => by simpa using h
  | r :: rest, acc, h => by
      rw [List.foldl_cons]
      apply isSome_foldl_lastRule
      by_cases hr : r.name = name
      · simp [hr]
      · simp only [List.map_cons, List.mem_cons] at h
        simp only [hr, if_false]
        rcases h with h | h | h
        · exact .inl h
        · exact absurd h.symm hr
        · exact .inr h

theorem lastRule?_isSome {rules : List DenyRule} {name : String} (h : name ∈ rules.map (·.name)) :
    (lastRule? rules name).isSome :=
  isSome_foldl_lastRule (.inr h)

theorem plan_of_address {prev next : PolicySet}
    (h : prev.scope.canonicalAddress = next.scope.canonicalAddress) :
    plan (some prev) next = .ok ⟨next.scope, next.scope.policyParent,
      (ruleNameSet prev.rules next.rules).map (changeOf prev.rules next.rules)⟩ := by
  simp [plan, h, pure_eq_ok]

theorem plan_eq_ok_of_address {prev : Option PolicySet} {next : PolicySet}
    (h : ∀ q, prev = some q → q.scope.canonicalAddress = next.scope.canonicalAddress) :
    ∃ p, plan prev next = .ok p := by
  cases prev with
  | none => exact ⟨_, rfl⟩
  | some q => exact ⟨_, plan_of_address (h q rfl)⟩

theorem plan_self (s : PolicySet) :
    ∃ p, plan (some s) s = .ok p ∧ ∀ c ∈ p.changes, c.action = .unchanged := by
  refine ⟨_, plan_of_address rfl, ?_⟩
  intro c hc
  obtain ⟨name, hname, rfl⟩ := List.mem_map.mp hc
  have hmem : name ∈ s.rules.map (·.name) := by
    simpa [ruleNameSet, StringSet.mem_ofList] using hname
  obtain ⟨r, hr⟩ := Option.isSome_iff_exists.mp (lastRule?_isSome hmem)
  simp [changeOf, hr]

/-! ## The last set of an address -/

/-- The last of `sets` for the address `a`. -/
def lastApplied (sets : List PolicySet) (a : String) : Option PolicySet :=
  sets.reverse.find? (·.scope.canonicalAddress = a)

@[simp] theorem lastApplied_nil (a : String) : lastApplied [] a = none := rfl

theorem lastApplied_append (xs ys : List PolicySet) (a : String) :
    lastApplied (xs ++ ys) a = (lastApplied ys a).or (lastApplied xs a) := by
  simp [lastApplied, List.find?_append]

theorem lastApplied_cons (s : PolicySet) (sets : List PolicySet) (a : String) :
    lastApplied (s :: sets) a =
      (lastApplied sets a).or (if s.scope.canonicalAddress = a then some s else none) := by
  rw [← List.singleton_append, lastApplied_append]
  by_cases h : s.scope.canonicalAddress = a <;> simp [lastApplied, h]

theorem address_of_lastApplied {sets : List PolicySet} {a : String} {s : PolicySet}
    (h : lastApplied sets a = some s) : s.scope.canonicalAddress = a := by
  simpa using List.find?_some h

theorem lastApplied_eq_none {sets : List PolicySet} {a : String}
    (h : ∀ t ∈ sets, t.scope.canonicalAddress ≠ a) : lastApplied sets a = none := by
  rw [lastApplied, List.find?_eq_none]
  intro t ht
  simpa using h t (List.mem_reverse.mp ht)

/-! ## One application -/

namespace DryRun

@[simp] theorem get?_empty (a : String) : ({} : DryRun).get? a = none := rfl

theorem address_of_get? {d : DryRun} {a : String} {s : PolicySet} (h : d.get? a = some s) :
    s.scope.canonicalAddress = a := by
  simpa using List.find?_some h

theorem get?_remember (d : DryRun) (s : PolicySet) (a : String) :
    (d.remember s).get? a = if s.scope.canonicalAddress = a then some s else d.get? a := by
  by_cases ha : s.scope.canonicalAddress = a
  · simp [get?, remember, ha]
  · simp only [get?, remember, List.find?_cons, ha, decide_false, if_false, List.find?_filter]
    congr 1
    funext q
    by_cases hq : q.scope.canonicalAddress = a
    · have hne : ¬ a = s.scope.canonicalAddress := fun hs => ha hs.symm
      simp [hq, hne]
    · simp [hq]

def reportOf (prev : Option PolicySet) (s : PolicySet) : Except PolicyError ApplyReport :=
  (plan prev s).map fun p => ⟨s.scope.id, p.changes.map Change.succeeded⟩

theorem apply_eq (d : DryRun) (s : PolicySet) :
    d.apply s = (reportOf (d.get? s.scope.canonicalAddress) s).map (·, d.remember s) := by
  unfold apply reportOf
  cases plan (d.get? s.scope.canonicalAddress) s <;> rfl

/-! ## Runs -/

/-- Applies sets one after another: the result of each application, and the dry
run at the end.  A refused application leaves the dry run as it was. -/
def run : DryRun → List PolicySet → List (Except PolicyError ApplyReport) × DryRun
  | d, [] => ([], d)
  | d, s :: rest =>
    match d.apply s with
    | .ok (report, d') => (.ok report :: (run d' rest).1, (run d' rest).2)
    | .error e => (.error e :: (run d rest).1, (run d rest).2)

theorem run_cons (d : DryRun) (s : PolicySet) (rest : List PolicySet) :
    run d (s :: rest) = (reportOf (d.get? s.scope.canonicalAddress) s :: (run (d.remember s) rest).1,
      (run (d.remember s) rest).2) := by
  obtain ⟨p, hp⟩ := @plan_eq_ok_of_address (d.get? s.scope.canonicalAddress) s
    fun q hq => address_of_get? hq
  simp [run, apply_eq, reportOf, hp, Except.map]

theorem length_run (d : DryRun) (sets : List PolicySet) : (run d sets).1.length = sets.length := by
  induction sets generalizing d with
  | nil => rfl
  | cons s rest ih => simp [run_cons, ih]

theorem run_append (d : DryRun) (xs ys : List PolicySet) :
    run d (xs ++ ys) = ((run d xs).1 ++ (run (run d xs).2 ys).1, (run (run d xs).2 ys).2) := by
  induction xs generalizing d with
  | nil => rfl
  | cons s xs ih => simp [run_cons, ih]

theorem lastApplied_cons_or (d : DryRun) (s : PolicySet) (sets : List PolicySet) (a : String) :
    (lastApplied (s :: sets) a).or (d.get? a) = (lastApplied sets a).or ((d.remember s).get? a) := by
  rw [lastApplied_cons, Option.or_assoc, get?_remember]
  by_cases h : s.scope.canonicalAddress = a <;> simp [h]

/-- After a run a dry run remembers the run's last set of each address, and what
it remembered before for the addresses the run left alone. -/
theorem get?_run (d : DryRun) (sets : List PolicySet) (a : String) :
    (run d sets).2.get? a = (lastApplied sets a).or (d.get? a) := by
  induction sets generalizing d with
  | nil => simp [run]
  | cons s rest ih => rw [run_cons, ih, lastApplied_cons_or]

/-- The report of the set after `pre` is planned against the last set of `pre`
for its address, or what the dry run remembered before. -/
theorem getElem?_run (d : DryRun) (pre : List PolicySet) (s : PolicySet) (post : List PolicySet) :
    (run d (pre ++ s :: post)).1[pre.length]? =
      some (reportOf ((lastApplied pre s.scope.canonicalAddress).or
        (d.get? s.scope.canonicalAddress)) s) := by
  induction pre generalizing d with
  | nil => simp [run_cons]
  | cons u pre ih =>
      rw [List.cons_append, run_cons, List.length_cons, List.getElem?_cons_succ, ih,
        lastApplied_cons_or]

/-- A run depends on the dry run it starts from only through what that remembers. -/
theorem run_congr {d₁ d₂ : DryRun} (h : ∀ a, d₁.get? a = d₂.get? a) (sets : List PolicySet) :
    (run d₁ sets).1 = (run d₂ sets).1 ∧ ∀ a, (run d₁ sets).2.get? a = (run d₂ sets).2.get? a := by
  refine ⟨?_, fun a => by rw [get?_run, get?_run, h]⟩
  induction sets generalizing d₁ d₂ with
  | nil => rfl
  | cons s rest ih =>
      have hnext : ∀ a, (d₁.remember s).get? a = (d₂.remember s).get? a := by
        intro a
        rw [get?_remember, get?_remember, h]
      rw [run_cons, run_cons, h, ih hnext]

/-- Two sets for different addresses applied in either order give the same two
reports, and leave the same sets remembered. -/
theorem run_swap (d : DryRun) {s t : PolicySet}
    (h : s.scope.canonicalAddress ≠ t.scope.canonicalAddress) (post : List PolicySet) :
    ∃ x y rest, (run d (s :: t :: post)).1 = x :: y :: rest ∧
      (run d (t :: s :: post)).1 = y :: x :: rest ∧
      ∀ a, (run d (t :: s :: post)).2.get? a = (run d (s :: t :: post)).2.get? a := by
  have hsame : ∀ a, ((d.remember t).remember s).get? a = ((d.remember s).remember t).get? a := by
    intro a
    simp only [get?_remember]
    by_cases hs : s.scope.canonicalAddress = a
    · have ht : t.scope.canonicalAddress ≠ a := fun ht => h (hs.trans ht.symm)
      simp [hs, ht]
    · simp [hs]
  obtain ⟨hreports, hremembered⟩ := run_congr hsame post
  refine ⟨_, _, _, by rw [run_cons, run_cons], ?_, ?_⟩
  · rw [run_cons, run_cons, hreports, get?_remember, get?_remember, if_neg h, if_neg (Ne.symm h)]
  · intro a
    simp only [run_cons]
    exact hremembered a

end DryRun

/-- Applying sets one after another to a fresh dry run.  Every application
succeeds, and the report of a set lists, in order and each carried out, the
changes of its plan against the last earlier set for the same address.  At the
end each address has its last set remembered.  A set applied again, with no
other set for its address in between, changes nothing.  Swapping two
neighbouring sets for different addresses swaps their reports and changes
nothing else: the other reports and what is remembered at the end stay. -/
theorem dryRun_replays_last_applied (sets : List PolicySet) :
    (DryRun.run {} sets).1.length = sets.length ∧
    (∀ pre s post, sets = pre ++ s :: post → ∃ p,
        plan (lastApplied pre s.scope.canonicalAddress) s = .ok p ∧
        (DryRun.run {} sets).1[pre.length]? = some (.ok ⟨s.scope.id, p.changes.map Change.succeeded⟩)) ∧
    (∀ a, (DryRun.run {} sets).2.get? a = lastApplied sets a) ∧
    (∀ pre mid post s, sets = pre ++ s :: mid ++ s :: post →
        (∀ t ∈ mid, t.scope.canonicalAddress ≠ s.scope.canonicalAddress) →
        ∃ r, (DryRun.run {} sets).1[pre.length + mid.length + 1]? = some (.ok r) ∧
          ∀ o ∈ r.outcomes, o.action = .unchanged) ∧
    (∀ pre post s t, sets = pre ++ s :: t :: post →
        s.scope.canonicalAddress ≠ t.scope.canonicalAddress →
        ∃ A x y B, (DryRun.run {} sets).1 = A ++ x :: y :: B ∧
          (DryRun.run {} (pre ++ t :: s :: post)).1 = A ++ y :: x :: B ∧
          ∀ a, (DryRun.run {} (pre ++ t :: s :: post)).2.get? a = (DryRun.run {} sets).2.get? a) := by
  have hreport : ∀ pre s post, sets = pre ++ s :: post → ∃ p,
      plan (lastApplied pre s.scope.canonicalAddress) s = .ok p ∧
      (DryRun.run {} sets).1[pre.length]? = some (.ok ⟨s.scope.id, p.changes.map Change.succeeded⟩) := by
    rintro pre s post rfl
    obtain ⟨p, hp⟩ := @plan_eq_ok_of_address (lastApplied pre s.scope.canonicalAddress) s
      fun q hq => address_of_lastApplied hq
    refine ⟨p, hp, ?_⟩
    rw [DryRun.getElem?_run, DryRun.get?_empty, Option.or_none]
    simp [DryRun.reportOf, hp, Except.map]
  refine ⟨DryRun.length_run _ _, hreport, fun a => by rw [DryRun.get?_run, DryRun.get?_empty, Option.or_none],
    ?again, ?swap⟩
  case again =>
    rintro pre mid post s rfl hmid
    have hlast : lastApplied (pre ++ s :: mid) s.scope.canonicalAddress = some s := by
      rw [lastApplied_append, lastApplied_cons, lastApplied_eq_none hmid]
      simp
    obtain ⟨p, hp, hunchanged⟩ := plan_self s
    obtain ⟨p', hp', hresult⟩ := hreport (pre ++ s :: mid) s post rfl
    rw [hlast, hp, Except.ok.injEq] at hp'
    subst hp'
    refine ⟨_, by simpa [Nat.add_assoc] using hresult, ?_⟩
    intro o ho
    obtain ⟨c, hc, rfl⟩ := List.mem_map.mp ho
    exact hunchanged c hc
  case swap =>
    rintro pre post s t rfl h
    obtain ⟨x, y, rest, hst, hts, hremembered⟩ := DryRun.run_swap (DryRun.run {} pre).2 h post
    refine ⟨(DryRun.run {} pre).1, x, y, rest, ?_, ?_, ?_⟩
    · rw [DryRun.run_append, hst]
    · rw [DryRun.run_append, hts]
    · intro a
      rw [DryRun.run_append, DryRun.run_append]
      exact hremembered a

def denyRule (name permission : String) : DenyRule :=
  { (default : DenyRule) with name, deniedPermissions := [permission] }

def projectManifest (id : String) (rules : List DenyRule) : PolicySet :=
  { (default : PolicySet) with
    scope := ⟨.project, id, "cloudresourcemanager.googleapis.com/projects/" ++ id⟩, rules }

def ledgerRulesManifest : PolicySet :=
  projectManifest "ledger-prod"
    [denyRule "deny-export" "bigquery.tables.export", denyRule "deny-public-read" "storage.objects.get"]

def billingRulesManifest : PolicySet :=
  projectManifest "billing-prod" [denyRule "deny-export" "storage.objects.get"]

theorem ledger_reapplied_unchanged :
    ∃ r, (DryRun.run {} [ledgerRulesManifest, billingRulesManifest, ledgerRulesManifest]).1[2]? = some (.ok r) ∧
      r.outcomes.map (·.ruleName) = ["deny-export", "deny-public-read"] ∧
      ∀ o ∈ r.outcomes, o.action = .unchanged := by
  obtain ⟨r, hr, hunchanged⟩ := (dryRun_replays_last_applied _).2.2.2.1 [] [billingRulesManifest] []
    ledgerRulesManifest rfl (by decide)
  have hrun : (DryRun.run {} [ledgerRulesManifest, billingRulesManifest, ledgerRulesManifest]).1[2]? =
      some (.ok ⟨"ledger-prod", [⟨"deny-export", .unchanged, .succeeded⟩,
        ⟨"deny-public-read", .unchanged, .succeeded⟩]⟩) :=
    rfl
  have hr' : (DryRun.run {} [ledgerRulesManifest, billingRulesManifest, ledgerRulesManifest]).1[2]? =
      some (.ok r) := hr
  rw [hrun, Option.some.injEq, Except.ok.injEq] at hr'
  subst hr'
  exact ⟨_, hr, rfl, hunchanged⟩

end DenyPolicy
