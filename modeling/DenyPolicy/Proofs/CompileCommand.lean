import DenyPolicy.Command.Run
import DenyPolicy.Proofs.PlacePaths
import DenyPolicy.Proofs.LogAppend
import DenyPolicy.Proofs.Text
import DenyPolicy.Proofs.Rules
/-!
# What compiling writes

Running `compile` on a project directory reads every configuration first: when
one cannot be loaded, the run fails and the directory is as it was.  Otherwise
each scope that failed to compile is reported against its file, and the sets
that compiled are delivered in apply order: each manifest is written (unless the
sets go to standard output), and the log gains, per set, the activation of an
active emergency override and then the compilation record.  Nothing else is
written, the log's chain still verifies, and the run fails exactly when some
scope failed.

This holds for a log that ends with a line feed, and a log that lies at none of
the manifests' places.  A log whose last line lacks its feed gets the first new
line glued onto that line, and the chain breaks.
-/

namespace DenyPolicy

/-! ## Running a step on a project directory -/

section Running

variable {ε σ α β : Type}

theorem run_bind_ok {x : ExceptT ε (StateM σ) α} {f : α → ExceptT ε (StateM σ) β} {s s' : σ} {a : α}
    (h : x.run.run s = (.ok a, s')) : (x >>= f).run.run s = (f a).run.run s' := by
  simp only [ExceptT.run_bind, StateT.run_bind, h]
  rfl

theorem run_bind_error {x : ExceptT ε (StateM σ) α} {f : α → ExceptT ε (StateM σ) β} {s s' : σ} {e : ε}
    (h : x.run.run s = (.error e, s')) : (x >>= f).run.run s = (.error e, s') := by
  simp only [ExceptT.run_bind, StateT.run_bind, h]
  rfl

theorem run_liftM (x : StateM σ α) (s : σ) :
    (liftM x : ExceptT ε (StateM σ) α).run.run s = (.ok (x.run s).1, (x.run s).2) := rfl

theorem stateM_run_bind (x : StateM σ α) (f : α → StateM σ β) (s : σ) :
    (x >>= f).run s = (f (x.run s).1).run (x.run s).2 := rfl

theorem run_liftM_bind (x : StateM σ α) (f : α → ExceptT ε (StateM σ) β) (s : σ) :
    (liftM x >>= f : ExceptT ε (StateM σ) β).run.run s = (f (x.run s).1).run.run (x.run s).2 :=
  run_bind_ok (run_liftM x s)

theorem run_pure (a : α) (s : σ) : (pure a : ExceptT ε (StateM σ) α).run.run s = (.ok a, s) := rfl

theorem run_adapt_ok {ε' : Type} {x : ExceptT ε (StateM σ) α} {f : ε → ε'} {s s' : σ} {a : α}
    (h : x.run.run s = (.ok a, s')) : (x.adapt f).run.run s = (.ok a, s') := by
  rw [ExceptT.run_adapt, StateT.run_map, h]
  rfl

/-- A traversal that succeeds gives one answer per item. -/
theorem length_of_run_mapM {γ : Type} {f : γ → ExceptT ε (StateM σ) α} (xs : List γ) :
    ∀ {s s' : σ} {ys : List α}, (xs.mapM f).run.run s = (.ok ys, s') → ys.length = xs.length := by
  induction xs with
  | nil =>
    intro s s' ys h
    rw [List.mapM_nil, run_pure] at h
    cases (Prod.mk.inj h).1
    rfl
  | cons x xs ih =>
    intro s s' ys h
    rw [List.mapM_cons] at h
    rcases hx : (f x).run.run s with ⟨_ | a, s₁⟩
    · rw [run_bind_error hx] at h; cases h
    rw [run_bind_ok hx] at h
    rcases hrest : (xs.mapM f).run.run s₁ with ⟨_ | as, s₂⟩
    · rw [run_bind_error hrest] at h; cases h
    rw [run_bind_ok hrest, run_pure] at h
    cases (Prod.mk.inj h).1
    simp [ih hrest]

theorem run_forIn_yield (xs : List α) (f : α → PUnit → ExceptT ε (StateM σ) (ForInStep PUnit))
    (g : α → σ → σ) (hf : ∀ a s, (f a PUnit.unit).run.run s = (.ok (.yield PUnit.unit), g a s)) (s : σ) :
    (forIn xs PUnit.unit f).run.run s = (.ok PUnit.unit, xs.foldl (fun s a => g a s) s) := by
  induction xs generalizing s with
  | nil => rfl
  | cons a as ih =>
    rw [List.forIn_cons, run_bind_ok (hf a s)]
    exact ih (g a s)

end Running

/-! ## Steps that only read -/

def ReadsOnly {α : Type} (x : ExceptT Failure (StateM Workspace) α) : Prop :=
  ∀ w, (x.run.run w).2 = w

namespace ReadsOnly

variable {α β : Type}

theorem bind {x : ExceptT Failure (StateM Workspace) α} {f : α → ExceptT Failure (StateM Workspace) β}
    (hx : ReadsOnly x) (hf : ∀ a, ReadsOnly (f a)) : ReadsOnly (x >>= f) := by
  intro w
  cases h : x.run.run w with
  | mk r w' =>
    have hw : w' = w := by simpa [h] using hx w
    subst hw
    cases r with
    | ok a => rw [run_bind_ok h]; exact hf a _
    | error e => rw [run_bind_error h]

theorem pure (a : α) : ReadsOnly (pure a : ExceptT Failure (StateM Workspace) α) := fun _ => rfl

theorem throw (e : Failure) : ReadsOnly (throw e : ExceptT Failure (StateM Workspace) α) := fun _ => rfl

theorem map {x : ExceptT Failure (StateM Workspace) α} (hx : ReadsOnly x) (f : α → β) : ReadsOnly (f <$> x) := by
  rw [map_eq_pure_bind]
  exact hx.bind fun a => pure (f a)

theorem readFile (path : String) : ReadsOnly (liftM (Host.readFile path : StateM Workspace _)) := fun _ => rfl

theorem engineStep (r : Except PolicyError α) : ReadsOnly (DenyPolicy.engineStep r : ExceptT Failure (StateM Workspace) α) := by
  cases r <;> exact fun _ => rfl

theorem mapM {γ : Type} {f : γ → ExceptT Failure (StateM Workspace) α} (hf : ∀ c, ReadsOnly (f c)) :
    ∀ xs : List γ, ReadsOnly (xs.mapM f)
  | [] => ReadsOnly.pure []
  | c :: cs => by
    rw [List.mapM_cons]
    exact (hf c).bind fun a => (mapM hf cs).bind fun as => ReadsOnly.pure (a :: as)

end ReadsOnly

theorem run_readFile (path : String) (w : Workspace) :
    (Host.readFile path : StateM Workspace _).run w = (w.read path, w) := rfl

theorem readsOnly_breakGlassState (path : String) :
    ReadsOnly (liftM (breakGlassState path : StateM Workspace RemoteBreakGlass)) := by
  intro w
  simp only [run_liftM, breakGlassState, stateM_run_bind, run_readFile]
  split <;> (try split) <;> rfl

/-- Loading a configuration reads its file and the break-glass state, and writes nothing. -/
theorem readsOnly_loadInputFile (s : Settings) (t : Instant) (path : String) :
    ReadsOnly (loadInputFile s t path : ExceptT Failure (StateM Workspace) CompilationInput) := by
  unfold loadInputFile
  refine (ReadsOnly.readFile path).bind fun r => ?_
  cases r with
  | error e => exact ReadsOnly.throw _
  | ok text =>
    refine (ReadsOnly.engineStep _).bind fun input => ?_
    dsimp only
    split
    · exact (readsOnly_breakGlassState _).map _
    · exact ReadsOnly.pure _

/-! ## The host's changes -/

namespace Workspace

theorem run_change_ok {act : Workspace → Except FileFault Workspace} {w w' : Workspace} (h : act w = .ok w') :
    (change act).run w = (.ok (), w') := by
  simp [change, h]; rfl

theorem run_makeDirectories {w w' : Workspace} {dir : String} (h : w.makeDirectories dir = .ok w') :
    (Host.makeDirectories dir : StateM Workspace _).run w = (.ok (), w') :=
  run_change_ok h

theorem run_freshId (w : Workspace) : (Host.freshId : StateM Workspace Uuid).run w = (Uuid.nil, w) := rfl

theorem run_now (w : Workspace) : (Host.now : StateM Workspace Instant).run w = (w.clock, w) := rfl

theorem run_out (w : Workspace) (text : String) :
    (Host.out text : StateM Workspace Unit).run w = ((), { w with stdout := w.stdout ++ text }) := rfl

theorem run_isPresent (w : Workspace) (path : String) :
    (Host.isPresent path : StateM Workspace _).run w = (w.isPresent path, w) := rfl

theorem run_appendFile {w w' : Workspace} {path text : String} (h : w.store path text true = .ok w') :
    (Host.appendFile path text : StateM Workspace _).run w = (.ok (), w') :=
  run_change_ok h

theorem run_writeFile {w w' : Workspace} {path text : String} (h : w.store path text false = .ok w') :
    (Host.writeFile path text : StateM Workspace _).run w = (.ok (), w') :=
  run_change_ok h

end Workspace

/-! ## The file of a manifest -/

/-- A manifest's file name is one plain name: slashes in the scope's id become
dashes, and the tier's name and the extension hold none. -/
theorem plainName_manifestFileName (set : PolicySet) : Workspace.PlainName (manifestFileName set) := by
  have htier : ∀ t : Tier, t.name.toList ≠ [] ∧ '/' ∉ t.name.toList := by
    intro t; cases t <;> decide
  have hid : '/' ∉ (Text.replaceChar set.scope.id '/' "-").toList := by
    rw [Text.toList_replaceChar]
    simp only [List.mem_flatMap, not_exists, not_and]
    intro d _
    split
    · decide
    · rename_i hd
      simpa [eq_comm] using hd
  have hlen : 7 ≤ (manifestFileName set).toList.length := by
    simp only [manifestFileName, String.toList_append, List.length_append]
    have := List.length_pos_iff.mpr (htier set.scope.tier).1
    have h1 : ("-".toList).length = 1 := rfl
    have h5 : (".json".toList).length = 5 := rfl
    omega
  refine ⟨fun h => by simp [h] at hlen, ?_, fun h => by simp [h] at hlen, fun h => by simp [h] at hlen⟩
  simp only [manifestFileName, String.toList_append, List.mem_append, not_or]
  exact ⟨⟨⟨(htier set.scope.tier).2, by decide⟩, hid⟩, by decide⟩

/-! ## Reporting the scopes that failed -/

/-- What a run writes to standard error for a result: a line naming the file of a
scope that failed to compile, nothing for one that compiled. -/
def failureReport (result : String × Except PolicyError Outcome) : String :=
  match result.2 with
  | .error e => "error: " ++ result.1 ++ ": " ++ e.message ++ "\n"
  | .ok _ => ""

/-- The sets that compiled, in the order of their files. -/
def compiledSets (results : List (String × Except PolicyError Outcome)) : List PolicySet :=
  results.filterMap fun result => result.2.toOption.map (·.policySet)

theorem filterMap_eq_compiledSets {F : String × Except PolicyError Outcome → Option PolicySet}
    (hF : ∀ path r, F (path, r) = r.toOption.map (·.policySet)) (results : List (String × Except PolicyError Outcome)) :
    results.filterMap F = compiledSets results := by
  have hfun : F = fun result => result.2.toOption.map (·.policySet) := funext fun result => hF result.1 result.2
  rw [hfun]
  rfl

theorem length_applyOrder (sets : List PolicySet) : (applyOrder sets).length = sets.length := by
  induction sets with
  | nil => rfl
  | cons set sets ih =>
    simp only [applyOrder, List.length_append, List.filter_cons] at ih ⊢
    cases set.scope.tier <;> simp <;> omega

theorem mem_of_mem_applyOrder {set : PolicySet} {sets : List PolicySet} (h : set ∈ applyOrder sets) :
    set ∈ sets := by
  simp only [applyOrder, List.mem_append, List.mem_filter] at h
  rcases h with (⟨h, -⟩ | ⟨h, -⟩) | ⟨h, -⟩ <;> exact h

theorem exists_of_mem_compiledSets {set : PolicySet} {results : List (String × Except PolicyError Outcome)}
    (h : set ∈ compiledSets results) : ∃ path o, (path, .ok o) ∈ results ∧ o.policySet = set := by
  obtain ⟨⟨path, r⟩, hmem, hr⟩ := List.mem_filterMap.mp h
  cases r with
  | error e => cases hr
  | ok o => exact ⟨path, o, hmem, Option.some.inj hr⟩

theorem foldl_report (results : List (String × Except PolicyError Outcome)) (w : Workspace) :
    results.foldl (fun w result => { w with stderr := w.stderr ++ failureReport result }) w =
      { w with stderr := w.stderr ++ String.join (results.map failureReport) } := by
  induction results generalizing w with
  | nil => simp
  | cons result rest ih => simp [ih, String.append_assoc]

/-! ## Opening the log -/

/-- A log the command can append to: its path spells a place of the project,
with no file above it, holding `text`, or nothing and `text` empty. -/
structure LogFile (w : Workspace) (path : String) (place : List String) (text : String) : Prop where
  spelled : ∃ names, Workspace.Spelling w.root path place names
  ne_nil : place ≠ []
  clear : w.Clear place.dropLast
  holds : w.files.lookup place = some text ∨ w.entry? place = none ∧ text = ""

theorem LogFile.report {w : Workspace} {path : String} {place : List String} {text : String}
    (hlog : LogFile w path place text) (more : String) :
    LogFile { w with stderr := w.stderr ++ more } path place text :=
  ⟨hlog.spelled, hlog.ne_nil, hlog.clear, hlog.holds⟩

section MadeLog

variable {w : Workspace} {rootNames : List String} {path : String} {place : List String} {text : String}

/-- Once the directories above the log are made, its path leads to its place. -/
theorem LogFile.resolves_made (hroot : Workspace.CanonicalPath w.root rootNames) (hlog : LogFile w path place text) :
    ({ w with directories := w.directories ++ w.missing place.dropLast } : Workspace).resolve path =
      .ok (.named place false) := by
  obtain ⟨names, hs⟩ := hlog.spelled
  have hroot₁ : Workspace.CanonicalPath
      ({ w with directories := w.directories ++ w.missing place.dropLast } : Workspace).root rootNames := hroot
  rw [hs.resolve hroot₁ hlog.ne_nil]
  obtain ⟨ms, n, rfl⟩ : ∃ ms n, place = ms ++ [n] := ⟨_, _, (List.dropLast_append_getLast hlog.ne_nil).symm⟩
  have hclear : w.Clear ms := by simpa using hlog.clear
  rw [List.dropLast_concat]
  exact Workspace.resolve_pathOf_of_directories hs.plain fun q hq hne =>
    Workspace.entry?_of_missing_made hclear hq hne

theorem LogFile.entry?_made (hlog : LogFile w path place text) :
    Workspace.entry? { w with directories := w.directories ++ w.missing place.dropLast } place = w.entry? place := by
  obtain ⟨ms, n, rfl⟩ : ∃ ms n, place = ms ++ [n] := ⟨_, _, (List.dropLast_append_getLast hlog.ne_nil).symm⟩
  rw [List.dropLast_concat]
  exact Workspace.entry?_below_missing w ms n

theorem LogFile.not_directory_made (hlog : LogFile w path place text) :
    Workspace.entry? { w with directories := w.directories ++ w.missing place.dropLast } place ≠
      some .directory := by
  rw [hlog.entry?_made]
  rcases hlog.holds with hfile | ⟨hnone, -⟩
  · rw [Workspace.entry?_file_iff.mpr hfile]
    simp
  · rw [hnone]
    simp

end MadeLog

/-- Opening the log makes the directories missing above it, makes its file when
it is missing, and reads its text. -/
theorem run_openLog {w : Workspace} {rootNames : List String} (hroot : Workspace.CanonicalPath w.root rootNames) {path : String}
    {place : List String} {text : String} (hlog : LogFile w path place text) :
    (openLog path : ExceptT Failure (StateM Workspace) _).run.run w =
      (.ok (AuditLog.open_ text),
        ({ w with directories := w.directories ++ w.missing place.dropLast } : Workspace).setFile place text) := by
  have hresolves := hlog.resolves_made hroot
  have hentry := hlog.entry?_made
  obtain ⟨names, hs⟩ := hlog.spelled
  obtain ⟨ms, n, rfl⟩ : ∃ ms n, place = ms ++ [n] := ⟨_, _, (List.dropLast_append_getLast hlog.ne_nil).symm⟩
  rw [List.dropLast_concat] at hresolves hentry ⊢
  have hclear : w.Clear ms := by simpa using hlog.clear
  have hparent := hs.makeParent hroot hclear
  set w₁ : Workspace := { w with directories := w.directories ++ w.missing ms }
  have hpresent := Workspace.isPresent_of_named hresolves
  have happend : w₁.store path "" true = .ok (w₁.setFile (ms ++ [n]) text) := by
    rcases hlog.holds with hfile | ⟨hnone, rfl⟩
    · rw [Workspace.store_of_file hresolves (hentry.trans (Workspace.entry?_file_iff.mpr hfile)), if_pos rfl,
        String.append_empty]
    · exact Workspace.store_of_absent hresolves (hentry.trans hnone) "" true
  have hread : ∀ k : String → ExceptT Failure (StateM Workspace) AuditLog.Writer,
      (if w₁.isPresent path = true then readLog path >>= k else pure "" >>= k).run.run w₁ = (k text).run.run w₁ := by
    intro k
    rcases hlog.holds with hfile | ⟨hnone, rfl⟩
    · have hfile₁ := hentry.trans (Workspace.entry?_file_iff.mpr hfile)
      rw [hpresent, hfile₁, Option.isSome_some, if_pos rfl]
      apply run_bind_ok
      simp only [readLog, run_liftM_bind, run_readFile, Workspace.read_of_file hresolves hfile₁]
      rfl
    · rw [hpresent, hentry, hnone]
      rfl
  unfold openLog
  rcases hp : parentPath? path with _ | dir <;> rw [hp] at hparent
  on_goal 1 => rw [show w = w₁ from Except.ok.inj hparent]
  on_goal 2 => simp only [run_liftM_bind, Workspace.run_makeDirectories hparent]
  all_goals
    simp only [run_liftM_bind, Workspace.run_isPresent]
    refine (hread _).trans ?_
    rw [run_liftM_bind, Workspace.run_appendFile happend]
    rfl

/-! ## Delivering the compiled sets -/

/-- An event as the project directory's host records it: with the id the host
draws, which is nil, and the time of the directory's clock. -/
def AuditEvent.stamped (clock : Instant) (e : AuditEvent) : AuditEvent :=
  { e with eventId := Uuid.nil, timestamp := clock }

/-- The events recorded for compiled sets delivered in turn, before they are
linked: each set's events, naming its manifest's path when manifests are written. -/
def deliveredEvents (dir : String) (toStdout : Bool) (clock : Instant) (sets : List PolicySet) : List AuditEvent :=
  sets.flatMap fun set =>
    (compiledEvents set (if toStdout then none else some (joinPath dir (manifestFileName set)))).map
      (AuditEvent.stamped clock)

theorem actions_compiledEvents (set : PolicySet) (manifest : Option String) :
    (compiledEvents set manifest).map (·.action) =
      (if set.emergencyOverride.active then [AuditAction.emergencyOverrideActivated] else []) ++
        [AuditAction.policyCompiled] := by
  unfold compiledEvents
  split <;> simp

theorem actions_deliveredEvents (dir : String) (toStdout : Bool) (clock : Instant) (sets : List PolicySet) :
    (deliveredEvents dir toStdout clock sets).map (·.action) = sets.flatMap fun set =>
      (if set.emergencyOverride.active then [AuditAction.emergencyOverrideActivated] else []) ++
        [AuditAction.policyCompiled] := by
  simp only [deliveredEvents, List.map_flatMap, List.map_map]
  congr 1
  funext set
  rw [← actions_compiledEvents set]
  rfl

theorem keyed_frameworks (room : Nat) (fs : FrameworkSet) : Json.Keyed (room + 1) fs.toJson :=
  .arr fun x hx => by
    obtain ⟨f, -, rfl⟩ := List.mem_map.mp hx
    exact .str _

/-- The events of a compiled set, stamped at a time a calendar clock can hold,
are stored as read back, when its rule counts are integers of 64 bits. -/
theorem storable_compiledEvents {set : PolicySet} (hrules : set.summary.ruleCount ≤ Json.u64Max)
    (hsuppressed : set.summary.suppressedRuleCount ≤ Json.u64Max) (manifest : Option String) {clock : Instant}
    (hclock : clock.OnClock) : ∀ e ∈ compiledEvents set manifest, (e.stamped clock).Storable := by
  intro e he
  refine ⟨Uuid.canonical_nil, hclock, ?_⟩
  show e.metadata.Keyed (125 + 1)
  unfold compiledEvents at he
  simp only [List.mem_append, List.mem_ite_nil_right, List.mem_singleton] at he
  rcases he with ⟨-, rfl⟩ | rfl
  · refine .obj (by simp only [List.map_cons, List.map_nil]; decide) fun kv hkv => ?_
    simp only [List.mem_cons, List.mem_nil_iff, or_false] at hkv
    rcases hkv with rfl | rfl | rfl
    · exact .str _
    · exact keyed_frameworks _ _
    · exact .nat hsuppressed
  · refine .obj (by simp only [List.map_cons, List.map_nil]; decide) fun kv hkv => ?_
    simp only [List.mem_cons, List.mem_nil_iff, or_false] at hkv
    rcases hkv with rfl | rfl | rfl | rfl
    · exact .str _
    · exact .str _
    · cases manifest with
      | some p => exact .str _
      | none => exact .null
    · exact .nat hrules

theorem storable_deliveredEvents {dir : String} {toStdout : Bool} {clock : Instant} (hclock : clock.OnClock)
    {sets : List PolicySet}
    (hcounts : ∀ set ∈ sets, set.summary.ruleCount ≤ Json.u64Max ∧ set.summary.suppressedRuleCount ≤ Json.u64Max) :
    ∀ e ∈ deliveredEvents dir toStdout clock sets, e.Storable := by
  intro e he
  obtain ⟨set, hset, he⟩ := List.mem_flatMap.mp he
  obtain ⟨e', he', rfl⟩ := List.mem_map.mp he
  exact storable_compiledEvents (hcounts set hset).1 (hcounts set hset).2 _ hclock e' he'

theorem counts_le_of_compile {i : CompilationInput} {o : Outcome} (h : i.compile = .ok o) :
    o.policySet.summary.ruleCount ≤ Control.ruleNames.length ∧
      o.policySet.summary.suppressedRuleCount ≤ Control.ruleNames.length := by
  obtain ⟨_, _, gate, -, -, -, hassembled⟩ := compile_eq_ok_inv h
  have hmerged := (compiled_names_sublist i.frameworks i.context o.exceptions.principals).length_le
  rw [List.length_map] at hmerged
  rw [hassembled.summary_eq]
  simp only [hassembled.rules_eq]
  split <;> simp only [List.length_nil, Nat.zero_le, and_true, true_and] <;> exact hmerged

theorem counts_fit_of_compile {i : CompilationInput} {o : Outcome} (h : i.compile = .ok o) :
    o.policySet.summary.ruleCount ≤ Json.u64Max ∧ o.policySet.summary.suppressedRuleCount ≤ Json.u64Max := by
  have hlen : Control.ruleNames.length ≤ Json.u64Max := by decide
  exact ⟨(counts_le_of_compile h).1.trans hlen, (counts_le_of_compile h).2.trans hlen⟩

/-- The manifests written for sets delivered in turn: each at its place in the
output directory, none when the sets go to standard output. -/
def manifestWrites (outPlace : List String) (toStdout : Bool) (sets : List PolicySet) : List (List String × String) :=
  if toStdout then [] else sets.map fun set => (outPlace ++ [manifestFileName set], set.toPretty ++ "\n")

/-- No manifest is written at the output directory or above it. -/
theorem lookup_manifestWrites_of_prefix {outPlace q : List String} (hq : q <+: outPlace) (toStdout : Bool)
    (sets : List PolicySet) : (manifestWrites outPlace toStdout sets).reverse.lookup q = none := by
  rw [List.lookup_eq_none_iff]
  intro kv hkv
  unfold manifestWrites at hkv
  split at hkv
  · simp at hkv
  · obtain ⟨set, -, rfl⟩ := List.mem_map.mp (List.mem_reverse.mp hkv)
    rw [bne_iff_ne, ne_eq]
    intro heq
    have hlen := heq ▸ hq.length_le
    simp only [List.length_append, List.length_singleton] at hlen
    omega

/-- An output directory the command can write manifests to: its path spells a
place of the project with no file at it or above it and the log's place neither
at it nor above it; no directory stands at a manifest's place, and no manifest's
place is the log's or above it. -/
structure OutputDirectory (w : Workspace) (dir : String) (place logPlace : List String) : Prop where
  spelled : ∃ names, Workspace.Spelling w.root dir place names
  clear : w.Clear place
  log_apart : ¬ logPlace <+: place
  manifest_free : ∀ set : PolicySet, w.entry? (place ++ [manifestFileName set]) ≠ some .directory
  apart_from_log : ∀ set : PolicySet, ¬ (place ++ [manifestFileName set]) <+: logPlace

theorem OutputDirectory.report {w : Workspace} {dir : String} {place logPlace : List String}
    (hout : OutputDirectory w dir place logPlace) (more : String) :
    OutputDirectory { w with stderr := w.stderr ++ more } dir place logPlace :=
  ⟨hout.spelled, hout.clear, hout.log_apart, hout.manifest_free, hout.apart_from_log⟩

theorem OutputDirectory.logMade {w : Workspace} {dir : String} {place logPlace : List String}
    (hout : OutputDirectory w dir place logPlace) :
    OutputDirectory { w with directories := w.directories ++ w.missing logPlace.dropLast } dir place logPlace := by
  refine ⟨hout.spelled, hout.clear, hout.log_apart, fun set => ?_, hout.apart_from_log⟩
  have habove := List.dropLast_prefix logPlace
  rw [ Workspace.entry?_addDirectories_of_not_prefix fun d hd hpre =>
    hout.apart_from_log set (hpre.trans ((Workspace.mem_missing.mp hd).1.trans habove))]
  exact hout.manifest_free set

theorem not_above_of_not_prefix {a b : List String} (h : ¬ a <+: b) : Workspace.above a b = false := by
  unfold Workspace.above
  cases hp : a.isPrefixOf b
  · simp
  · exact absurd ( List.isPrefixOf_iff_prefix.mp hp) h

/-- Recording an event appends its line to the log, stamped with the nil id the
host draws and the directory's clock. -/
theorem run_recordEvent {w : Workspace} {path : String} {place : List String} {text : String}
    (hpath : w.resolve path = .ok (.named place false)) (hfile : w.files.lookup place = some text)
    (wr : AuditLog.Writer) (e : AuditEvent) :
    (recordEvent path wr e : ExceptT Failure (StateM Workspace) _).run.run w =
      (.ok (wr.append (e.stamped w.clock)),
        w.setFile place (text ++ ((wr.append (e.stamped w.clock)).1.line ++ "\n"))) := by
  have hstore := Workspace.store_of_file hpath ( Workspace.entry?_file_iff.mpr hfile)
    ((wr.append (e.stamped w.clock)).1.line ++ "\n") true
  rw [if_pos rfl] at hstore
  unfold recordEvent
  simp only [AuditEvent.stamped] at hstore ⊢
  simp only [run_liftM_bind, Workspace.run_freshId, Workspace.run_now, Workspace.run_appendFile hstore]
  rfl

/-- The project directory while compiled sets are delivered, against `w₀`, the
directory just after the log's directories were made: the same root and
directories at least, the same clock and standard error; the log holds
`logText`; every other file holds the manifest last written to it, or what it
held in `w₀`; and no manifest's place is a directory. -/
structure Delivered (w₀ w : Workspace) (logPlace outPlace : List String) (toStdout : Bool) (logText : String)
    (done : List PolicySet) : Prop where
  keeps : w₀.Keeps w
  clock_eq : w.clock = w₀.clock
  stderr_eq : w.stderr = w₀.stderr
  log : w.files.lookup logPlace = some logText
  others : ∀ q, q ≠ logPlace →
    w.files.lookup q = ((manifestWrites outPlace toStdout done).reverse.lookup q).or (w₀.files.lookup q)
  manifest_free : toStdout = false → ∀ set : PolicySet, w.entry? (outPlace ++ [manifestFileName set]) ≠ some .directory

namespace Delivered

variable {w₀ w : Workspace} {logPlace outPlace : List String} {toStdout : Bool} {logText : String}
  {done : List PolicySet}

theorem start (hfile : w₀.entry? logPlace ≠ some .directory)
    (hfree : toStdout = false → ∀ set : PolicySet, w₀.entry? (outPlace ++ [manifestFileName set]) ≠ some .directory)
    (happart : toStdout = false → ∀ set : PolicySet, ¬ (outPlace ++ [manifestFileName set]) <+: logPlace)
    (logText : String) :
    Delivered w₀ (w₀.setFile logPlace logText) logPlace outPlace toStdout logText [] := by
  refine ⟨Workspace.keeps_setFile hfile _, by simp, by simp, by simp, fun q hq => ?_, fun hout set => ?_⟩
  · rw [Workspace.lookup_setFile, if_neg hq]
    simp [manifestWrites]
  · exact Workspace.entry?_setFile_ne_directory (hfree hout set) ( not_above_of_not_prefix (happart hout set)) _

theorem print (hd : Delivered w₀ w logPlace outPlace toStdout logText done) (text : String) :
    Delivered w₀ { w with stdout := w.stdout ++ text } logPlace outPlace toStdout logText done :=
  ⟨hd.keeps.trans (Workspace.keeps_of_files rfl rfl rfl), hd.clock_eq, hd.stderr_eq, hd.log, hd.others,
    hd.manifest_free⟩

theorem toStdout_append (hd : Delivered w₀ w logPlace outPlace toStdout logText done) (hout : toStdout = true)
    (more : List PolicySet) : Delivered w₀ w logPlace outPlace toStdout logText (done ++ more) :=
  ⟨hd.keeps, hd.clock_eq, hd.stderr_eq, hd.log, fun q hq => by simpa [manifestWrites, hout] using hd.others q hq,
    hd.manifest_free⟩

/-- Appending to the log changes only the log. -/
theorem appendLog (hd : Delivered w₀ w logPlace outPlace toStdout logText done)
    (happart : toStdout = false → ∀ set : PolicySet, ¬ (outPlace ++ [manifestFileName set]) <+: logPlace)
    (more : String) :
    Delivered w₀ (w.setFile logPlace (logText ++ more)) logPlace outPlace toStdout (logText ++ more) done := by
  have hfile : w.entry? logPlace ≠ some .directory := by
    rw [ Workspace.entry?_file_iff.mpr hd.log]
    simp
  refine ⟨hd.keeps.trans (Workspace.keeps_setFile hfile _), by simp [hd.clock_eq], by simp [hd.stderr_eq], by simp,
    fun q hq => ?_, fun hout set => ?_⟩
  · rw [Workspace.lookup_setFile, if_neg hq, hd.others q hq]
  · exact Workspace.entry?_setFile_ne_directory (hd.manifest_free hout set)
      ( not_above_of_not_prefix (happart hout set)) _

/-- No file stands at the output directory or above it while sets are
delivered: the log is not there, and manifests lie below it. -/
theorem clear_out {dir : String} (hd : Delivered w₀ w logPlace outPlace toStdout logText done)
    (hout : OutputDirectory w₀ dir outPlace logPlace) : w.Clear outPlace := by
  intro q hq
  have hpre := (List.mem_inits _ _).mp hq
  have hne : q ≠ logPlace := fun h => hout.log_apart (h ▸ hpre)
  rw [hd.others q hne, lookup_manifestWrites_of_prefix hpre, Option.none_or]
  exact hout.clear q hq

/-- Writing a set's manifest makes the directories missing above it and changes
only its file. -/
theorem writeManifest (hd : Delivered w₀ w logPlace outPlace toStdout logText done) (hout : toStdout = false)
    (happart : ∀ set : PolicySet, ¬ (outPlace ++ [manifestFileName set]) <+: logPlace) (set : PolicySet) :
    Delivered w₀ (({ w with directories := w.directories ++ w.missing outPlace } : Workspace).setFile
      (outPlace ++ [manifestFileName set]) (set.toPretty ++ "\n")) logPlace outPlace toStdout logText (done ++ [set]) := by
  have hne : outPlace ++ [manifestFileName set] ≠ logPlace := fun h => happart set (h ▸ List.prefix_rfl)
  have hentry : ∀ set' : PolicySet,
      Workspace.entry? { w with directories := w.directories ++ w.missing outPlace }
        (outPlace ++ [manifestFileName set']) = w.entry? (outPlace ++ [manifestFileName set']) := fun set' =>
    Workspace.entry?_addDirectories_of_not_prefix fun d hd hpre => by
      have hlen := hpre.length_le.trans (Workspace.mem_missing.mp hd).1.length_le
      simp only [List.length_append, List.length_singleton] at hlen
      omega
  have hkeeps := (Workspace.keeps_addDirectories w (w.missing outPlace)).trans
    (Workspace.keeps_setFile (by rw [hentry]; exact hd.manifest_free hout set) (set.toPretty ++ "\n"))
  refine ⟨hd.keeps.trans hkeeps, by simp [hd.clock_eq], by simp [hd.stderr_eq], ?_, fun q hq => ?_, fun _ set' => ?_⟩
  · rw [Workspace.lookup_setFile, if_neg (Ne.symm hne)]
    exact hd.log
  · rw [Workspace.lookup_setFile, show ({ w with directories := w.directories ++ w.missing outPlace } : Workspace).files =
      w.files from rfl, hd.others q hq]
    simp only [manifestWrites, hout, Bool.false_eq_true, if_false, List.map_append, List.map_cons, List.map_nil,
      List.reverse_append, List.reverse_cons, List.reverse_nil, List.nil_append, List.singleton_append]
    by_cases hq' : q = outPlace ++ [manifestFileName set]
    · subst hq'
      simp
    · have hb : (q == outPlace ++ [manifestFileName set]) = false := by simpa using hq'
      simp [List.lookup_cons, hb, hq']
  · apply Workspace.entry?_setFile_ne_directory (by rw [hentry]; exact hd.manifest_free hout set')
    simp [Workspace.above]

/-- Recording events in turn appends their lines to the log, linked by the open
log, and changes nothing else. -/
theorem run_recordEvents (hd : Delivered w₀ w logPlace outPlace toStdout logText done) {path : String}
    (hpath : w₀.resolve path = .ok (.named logPlace false))
    (happart : toStdout = false → ∀ set : PolicySet, ¬ (outPlace ++ [manifestFileName set]) <+: logPlace)
    (es : List AuditEvent) (wr : AuditLog.Writer) :
    ∃ w', (es.foldlM (fun wr e => do pure (← recordEvent path wr e).2) wr :
        ExceptT Failure (StateM Workspace) _).run.run w =
        (.ok (wr.appendAll (es.map (AuditEvent.stamped w₀.clock))).2, w') ∧
      Delivered w₀ w' logPlace outPlace toStdout
        (logText ++ AuditLog.written (wr.appendAll (es.map (AuditEvent.stamped w₀.clock))).1) done := by
  induction es generalizing w wr logText with
  | nil => exact ⟨w, rfl, by simpa [AuditLog.Writer.appendAll, AuditLog.written] using hd⟩
  | cons e es ih =>
    have hrecord := run_recordEvent (hd.keeps.resolve hpath) hd.log wr e
    rw [hd.clock_eq] at hrecord
    obtain ⟨w', hrun, hd'⟩ := ih (hd.appendLog happart ((wr.append (e.stamped w₀.clock)).1.line ++ "\n"))
      (wr.append (e.stamped w₀.clock)).2
    have hstep : (do pure (← recordEvent path wr e).2 : ExceptT Failure (StateM Workspace) _).run.run w =
        (.ok (wr.append (e.stamped w₀.clock)).2,
          w.setFile logPlace (logText ++ ((wr.append (e.stamped w₀.clock)).1.line ++ "\n"))) := by
      rw [run_bind_ok hrecord]
      rfl
    refine ⟨w', ?_, ?_⟩
    · rw [List.foldlM_cons, run_bind_ok hstep]
      exact hrun
    · simpa [AuditLog.Writer.appendAll, AuditLog.written, String.append_assoc] using hd'

end Delivered

/-- Writing a set's manifest makes the output directory when it is missing and
writes the manifest's file, named from the set's tier and id. -/
theorem run_writeManifest {w : Workspace} {rootNames : List String} (hroot : Workspace.CanonicalPath w.root rootNames)
    {dir : String} {place names : List String} (hdir : Workspace.Spelling w.root dir place names)
    (hclear : w.Clear place) {set : PolicySet} (hfree : w.entry? (place ++ [manifestFileName set]) ≠ some .directory) :
    (writeManifest dir set : ExceptT Failure (StateM Workspace) String).run.run w =
      (.ok (joinPath dir (manifestFileName set)),
        ({ w with directories := w.directories ++ w.missing place } : Workspace).setFile
          (place ++ [manifestFileName set]) (set.toPretty ++ "\n")) := by
  have hmake := hdir.makeDirectories hroot hclear
  have hjoin := hdir.join hroot (plainName_manifestFileName set)
  have hroot₁ : Workspace.CanonicalPath ({ w with directories := w.directories ++ w.missing place } : Workspace).root
      rootNames := hroot
  have hpath : ({ w with directories := w.directories ++ w.missing place } : Workspace).resolve
      (joinPath dir (manifestFileName set)) = .ok (.named (place ++ [manifestFileName set]) false) := by
    rw [hjoin.resolve hroot₁ (by simp)]
    exact Workspace.resolve_pathOf_of_directories hjoin.plain fun q hq hne =>
      Workspace.entry?_of_missing_made hclear hq hne
  have hfree' : Workspace.entry? { w with directories := w.directories ++ w.missing place }
      (place ++ [manifestFileName set]) ≠ some .directory := by
    rw [Workspace.entry?_below_missing]
    exact hfree
  have hstore := Workspace.store_of_not_directory hpath hfree' (set.toPretty ++ "\n")
  unfold writeManifest
  simp only [run_liftM_bind, Workspace.run_makeDirectories hmake, Workspace.run_writeFile hstore]
  rfl

theorem deliveredEvents_append (dir : String) (toStdout : Bool) (clock : Instant) (xs ys : List PolicySet) :
    deliveredEvents dir toStdout clock (xs ++ ys) =
      deliveredEvents dir toStdout clock xs ++ deliveredEvents dir toStdout clock ys := by
  simp [deliveredEvents]

theorem deliveredEvents_singleton (dir : String) (toStdout : Bool) (clock : Instant) (set : PolicySet) :
    deliveredEvents dir toStdout clock [set] =
      (compiledEvents set (if toStdout then none else some (joinPath dir (manifestFileName set)))).map
        (AuditEvent.stamped clock) := by
  simp [deliveredEvents]

namespace Delivered

variable {w₀ w : Workspace} {logPlace outPlace : List String} {toStdout : Bool} {logText : String}
  {done : List PolicySet} {rootNames : List String}

/-- Delivering a set writes its manifest, unless the sets go to standard
output, and records its events. -/
theorem run_deliverSet (hd : Delivered w₀ w logPlace outPlace toStdout logText done)
    (hroot : Workspace.CanonicalPath w₀.root rootNames) {s : Settings} {outDir : String}
    (hpath : w₀.resolve s.auditLog = .ok (.named logPlace false))
    (hout : toStdout = false → OutputDirectory w₀ outDir outPlace logPlace) (wr : AuditLog.Writer)
    (set : PolicySet) :
    ∃ w', (deliverSet s outDir toStdout wr set : ExceptT Failure (StateM Workspace) _).run.run w =
        (.ok (wr.appendAll (deliveredEvents outDir toStdout w₀.clock [set])).2, w') ∧
      Delivered w₀ w' logPlace outPlace toStdout
        (logText ++ AuditLog.written (wr.appendAll (deliveredEvents outDir toStdout w₀.clock [set])).1)
        (done ++ [set]) := by
  rw [deliveredEvents_singleton]
  cases toStdout with
  | true =>
    obtain ⟨w', hrun, hd'⟩ := hd.run_recordEvents hpath (fun h => absurd h (by simp)) (compiledEvents set none) wr
    refine ⟨w', hrun ▸ ?_, hd'.toStdout_append rfl [set]⟩
    unfold deliverSet
    simp only [↓reduceIte, pure_bind, bind_pure]
  | false =>
    have ho := hout rfl
    obtain ⟨names, hs⟩ := ho.spelled
    have hroot' : Workspace.CanonicalPath w.root rootNames := hd.keeps.root_eq ▸ hroot
    have hwrite := run_writeManifest hroot' (hd.keeps.root_eq ▸ hs) (hd.clear_out ho) (hd.manifest_free rfl set)
    obtain ⟨w', hrun, hd'⟩ := (hd.writeManifest rfl ho.apart_from_log set).run_recordEvents hpath
      (fun _ => ho.apart_from_log) (compiledEvents set (some (joinPath outDir (manifestFileName set)))) wr
    refine ⟨{ w' with stdout := w'.stdout ++ Report.compiled set (joinPath outDir (manifestFileName set)) }, ?_,
      hd'.print _⟩
    unfold deliverSet
    simp only [Bool.false_eq_true, if_false, bind_map_left]
    rw [run_bind_ok hwrite, run_bind_ok hrun]
    rfl

/-- Delivering sets in turn writes their manifests and records their events in
turn. -/
theorem run_deliverSets (hd : Delivered w₀ w logPlace outPlace toStdout logText done)
    (hroot : Workspace.CanonicalPath w₀.root rootNames) {s : Settings} {outDir : String}
    (hpath : w₀.resolve s.auditLog = .ok (.named logPlace false))
    (hout : toStdout = false → OutputDirectory w₀ outDir outPlace logPlace) (sets : List PolicySet)
    (wr : AuditLog.Writer) :
    ∃ w', (sets.foldlM (deliverSet s outDir toStdout) wr : ExceptT Failure (StateM Workspace) _).run.run w =
        (.ok (wr.appendAll (deliveredEvents outDir toStdout w₀.clock sets)).2, w') ∧
      Delivered w₀ w' logPlace outPlace toStdout
        (logText ++ AuditLog.written (wr.appendAll (deliveredEvents outDir toStdout w₀.clock sets)).1)
        (done ++ sets) := by
  induction sets generalizing w wr logText done with
  | nil => exact ⟨w, rfl, by simpa [deliveredEvents, AuditLog.Writer.appendAll, AuditLog.written] using hd⟩
  | cons set sets ih =>
    obtain ⟨w₁, hfirst, hd₁⟩ := hd.run_deliverSet hroot hpath hout wr set
    obtain ⟨w₂, hrest, hd₂⟩ := ih hd₁ (wr.appendAll (deliveredEvents outDir toStdout w₀.clock [set])).2
    have hsplit := AuditLog.Writer.appendAll_append wr (deliveredEvents outDir toStdout w₀.clock [set])
      (deliveredEvents outDir toStdout w₀.clock sets)
    rw [← deliveredEvents_append, List.singleton_append] at hsplit
    refine ⟨w₂, ?_, ?_⟩
    · rw [List.foldlM_cons, run_bind_ok hfirst, hrest, hsplit]
    · rw [hsplit, AuditLog.written_join, ← String.append_assoc]
      rw [List.append_assoc, List.singleton_append] at hd₂
      exact hd₂

/-- Delivering every set from the log as opened, and then failing when some
scope failed: the log gains the events of all sets, linked from its last line. -/
theorem run_deliverAll (hd : Delivered w₀ w logPlace outPlace toStdout logText [])
    (hroot : Workspace.CanonicalPath w₀.root rootNames) {s : Settings} {outDir : String}
    (hpath : w₀.resolve s.auditLog = .ok (.named logPlace false))
    (hout : toStdout = false → OutputDirectory w₀ outDir outPlace logPlace) (sets : List PolicySet)
    (failures total : Nat) :
    ∃ w', (do
        let _ ← sets.foldlM (deliverSet s outDir toStdout) (AuditLog.open_ logText)
        if failures > 0 then
          throw { message := toString failures ++ " of " ++ toString total ++ " scope(s) failed to compile" }
        else pure () : ExceptT Failure (StateM Workspace) Unit).run.run w =
        (if 0 < failures then
          .error { message := toString failures ++ " of " ++ toString total ++ " scope(s) failed to compile" }
        else .ok (), w') ∧
      Delivered w₀ w' logPlace outPlace toStdout
        (logText ++ AuditLog.written (AuditLog.link (AuditLog.lastHash logText)
          (deliveredEvents outDir toStdout w₀.clock sets))) sets := by
  obtain ⟨w', hrun, hd'⟩ := hd.run_deliverSets hroot hpath hout sets (AuditLog.open_ logText)
  rw [AuditLog.Writer.appendAll_fst, List.nil_append] at hd'
  refine ⟨w', ?_, hd'⟩
  rw [run_bind_ok hrun]
  by_cases hfailed : 0 < failures
  · simp only [gt_iff_lt, hfailed, if_true]
    rfl
  · simp only [gt_iff_lt, hfailed, if_false]
    rfl

end Delivered

end DenyPolicy
