import DenyPolicy.Proofs.CompileCommand
/-!
# A compile run end to end

The delivery lemmas of `CompileCommand` put together over a whole `compile`
run (`compile_records_compiled_sets`): the configurations are read without a
change to the project, then the failures are reported, the log opened and the
compiled sets delivered.  The log and the output directory must have room of
their own: a directory standing where a manifest goes stops the run at that
manifest, before any event of its set is recorded
(`directory_at_manifest_blocks_compile`).
-/

namespace DenyPolicy

theorem run_evaluationTime {stamp : String} {t : Instant} (htime : Instant.readStrict stamp = .ok t) (w : Workspace) :
    (evaluationTime (some stamp) : ExceptT Failure (StateM Workspace) Instant).run.run w = (.ok t, w) := by
  simp only [evaluationTime, htime]
  rfl

/-- The configurations as loaded from the project directory. -/
def loadedConfigs (s : Settings) (t : Instant) (configs : List String) (w : Workspace) :
    Except Failure (List CompilationInput) :=
  ((configs.mapM (loadInputFile s t) : ExceptT Failure (StateM Workspace) _).run.run w).1

theorem run_loadInputFiles (s : Settings) (t : Instant) (configs : List String) (w : Workspace) :
    (configs.mapM (loadInputFile s t) : ExceptT Failure (StateM Workspace) _).run.run w =
      (loadedConfigs s t configs w, w) :=
  Prod.ext rfl (ReadsOnly.mapM (readsOnly_loadInputFile s t) configs w)

theorem run_runCompile_loaded {s : Settings} {configs : List String} {out : Option String} {stamp : String}
    {toStdout : Bool} {w : Workspace} {t : Instant} {rootNames logPlace outPlace : List String} {logText : String}
    (htime : Instant.readStrict stamp = .ok t) (hroot : Workspace.CanonicalPath w.root rootNames)
    (hlog : LogFile w s.auditLog logPlace logText)
    (hout : toStdout = false → OutputDirectory w (out.getD s.outputDir) outPlace logPlace)
    {inputs : List CompilationInput}
    (hload : (configs.mapM (loadInputFile s t) : ExceptT Failure (StateM Workspace) _).run.run w = (.ok inputs, w)) :
    let results := configs.zip (inputs.map CompilationInput.compile)
    let sets := applyOrder (compiledSets results)
    let failed := configs.length - sets.length
    ∃ w', (runCompile s configs out (some stamp) toStdout : ExceptT Failure (StateM Workspace) Unit).run.run w =
        (if 0 < failed then
          .error { message := toString failed ++ " of " ++ toString configs.length ++ " scope(s) failed to compile" }
        else .ok (), w') ∧
      Delivered
        { w with
          stderr := w.stderr ++ String.join (results.map failureReport)
          directories := w.directories ++ w.missing logPlace.dropLast }
        w' logPlace outPlace toStdout (logText ++ AuditLog.written (AuditLog.link (AuditLog.lastHash logText)
          (deliveredEvents (out.getD s.outputDir) toStdout w.clock sets))) sets := by
  intro results sets failed
  have hfailed : results.length - (compiledSets results).length = failed := by
    simp [failed, sets, results, length_applyOrder, List.length_zip, length_of_run_mapM configs hload]
  unfold runCompile
  rw [run_bind_ok (run_evaluationTime htime w), run_bind_ok hload]
  dsimp only
  rw [run_bind_ok (run_forIn_yield _ _ (fun result w => { w with stderr := w.stderr ++ failureReport result })
    ?reports w), foldl_report, filterMap_eq_compiledSets ?compiled]
  case reports =>
    intro result w
    obtain ⟨path, r⟩ := result
    cases r with
    | error e => rfl
    | ok o =>
      simp only [failureReport, String.append_empty]
      rfl
  case compiled =>
    intro path r
    cases r <;> rfl
  have hlog' := hlog.report (String.join (results.map failureReport))
  have hout' := fun h => ((hout h).report (String.join (results.map failureReport))).logMade
  have hd := Delivered.start hlog'.not_directory_made (fun h => (hout' h).manifest_free)
    (fun h => (hout' h).apart_from_log) logText
  rw [run_bind_ok (run_adapt_ok (run_openLog (w := { w with stderr := w.stderr ++ String.join (results.map failureReport) }) hroot hlog')), hfailed]
  cases toStdout with
  | false =>
    simp only [Bool.false_eq_true, ↓reduceIte]
    exact hd.run_deliverAll hroot (hlog'.resolves_made hroot) hout' sets failed configs.length
  | true =>
    simp only [↓reduceIte]
    rw [run_liftM_bind, Workspace.run_out]
    exact (hd.print _).run_deliverAll hroot (hlog'.resolves_made hroot) hout' sets failed configs.length

theorem counts_fit_of_compiledSets {configs : List String} {inputs : List CompilationInput} {set : PolicySet}
    (h : set ∈ applyOrder (compiledSets (configs.zip (inputs.map CompilationInput.compile)))) :
    set.summary.ruleCount ≤ Json.u64Max ∧ set.summary.suppressedRuleCount ≤ Json.u64Max := by
  obtain ⟨path, o, hmem, rfl⟩ := exists_of_mem_compiledSets (mem_of_mem_applyOrder h)
  obtain ⟨i, -, hi⟩ := List.mem_map.mp (List.of_mem_zip hmem).2
  exact counts_fit_of_compile hi

/-- A compile run, in a project whose log verifies and ends where a line ends,
with the log and the output directory at paths that spell places in it, after
the root's path or read from the root (`Spelling`). When a configuration fails
to load, the run fails and changes nothing. Otherwise every configuration that
failed to compile is reported against its path, and the run fails when any did;
the log gains the events of the compiled sets in apply order, for each set the
activation of its emergency override when that is active and then its
compilation, linked onto the log's last line; the log still verifies, with one
event more per event recorded; and the only other files written are the
manifests of the compiled sets, unless they went to standard output. -/
theorem compile_records_compiled_sets {s : Settings} {configs : List String} {out : Option String}
    {stamp : String} {toStdout : Bool} {w : Workspace} {t : Instant} {rootNames logPlace outPlace : List String}
    {logText : String} {n : Nat}
    (htime : Instant.readStrict stamp = .ok t) (hroot : Workspace.CanonicalPath w.root rootNames)
    (hlog : LogFile w s.auditLog logPlace logText) (hends : AuditLog.endsLine logText = true)
    (hverifies : AuditLog.verify logText = .ok n) (hclock : w.clock.OnClock)
    (hout : toStdout = false → OutputDirectory w (out.getD s.outputDir) outPlace logPlace) :
    let run := (runCompile s configs out (some stamp) toStdout : ExceptT Failure (StateM Workspace) Unit).run.run w
    (∀ f, loadedConfigs s t configs w = .error f → run = (.error f, w)) ∧
    ∀ inputs, loadedConfigs s t configs w = .ok inputs →
      let results := configs.zip (inputs.map CompilationInput.compile)
      let sets := applyOrder (compiledSets results)
      let failed := configs.length - sets.length
      let stored := AuditLog.link (AuditLog.lastHash logText)
        (deliveredEvents (out.getD s.outputDir) toStdout w.clock sets)
      run.1 = (if 0 < failed then
          .error { message := toString failed ++ " of " ++ toString configs.length ++ " scope(s) failed to compile" }
        else .ok ()) ∧
      run.2.stderr = w.stderr ++ String.join (results.map failureReport) ∧
      stored.map (·.action) = sets.flatMap (fun set =>
        (if set.emergencyOverride.active then [AuditAction.emergencyOverrideActivated] else []) ++
          [AuditAction.policyCompiled]) ∧
      run.2.files.lookup logPlace = some (logText ++ AuditLog.written stored) ∧
      AuditLog.verify (logText ++ AuditLog.written stored) = .ok (n + stored.length) ∧
      ∀ q, q ≠ logPlace →
        run.2.files.lookup q = ((manifestWrites outPlace toStdout sets).reverse.lookup q).or (w.files.lookup q) := by
  intro run
  constructor
  · intro f hf
    have hload := run_loadInputFiles s t configs w
    rw [hf] at hload
    simp only [run]
    unfold runCompile
    rw [run_bind_ok (run_evaluationTime htime w), run_bind_error hload]
  · intro inputs hinputs results sets failed stored
    have hload := run_loadInputFiles s t configs w
    rw [hinputs] at hload
    obtain ⟨w', hrun, hd⟩ := run_runCompile_loaded htime hroot hlog hout hload
    have hstorable : ∀ e ∈ deliveredEvents (out.getD s.outputDir) toStdout w.clock sets, e.Storable :=
      storable_deliveredEvents hclock fun _ hset => counts_fit_of_compiledSets hset
    simp only [run, hrun]
    refine ⟨rfl, hd.stderr_eq, ?_, hd.log, ?_, hd.others⟩
    · rw [AuditLog.map_link _ (fun _ _ => rfl), actions_deliveredEvents]
    · rw [AuditLog.verify_append_link hends hverifies hstorable, AuditLog.length_link]

/-- A project holding one configuration, of a project scope, in JSON. -/
def ledgerProject : Workspace :=
  { root := "/srv/ledger"
    files := [(["ledger.json"], "\x7b\"scope\":\x7b\"tier\":\"project\",\"id\":\"ledger-prod\"\x7d,"
      ++ "\"enabled_frameworks\":[\"iso27001\"],\"data_classification\":\"internal\","
      ++ "\"exception_sources\":\x7b\"break_glass_group\":\"sec@x.com\"\x7d\x7d")] }

theorem ledger_compile_records_compiled_sets :
    Instant.readStrict "2026-03-01T12:00:00Z" = .ok ⟨1772366400, 0⟩ ∧
    Workspace.CanonicalPath ledgerProject.root ["srv", "ledger"] ∧
    LogFile ledgerProject (Settings.forProject ledgerProject.root).auditLog [".pf", "audit.jsonl"] "" ∧
    AuditLog.endsLine "" = true ∧ AuditLog.verify "" = .ok 0 ∧ ledgerProject.clock.OnClock ∧
    OutputDirectory ledgerProject "./build" ["build"] [".pf", "audit.jsonl"] ∧
    let s := Settings.forProject ledgerProject.root
    let configs := ["/srv/ledger/ledger.json"]
    let run := (runCompile s configs (some "./build") (some "2026-03-01T12:00:00Z") false :
      ExceptT Failure (StateM Workspace) Unit).run.run ledgerProject
    (∀ f, loadedConfigs s ⟨1772366400, 0⟩ configs ledgerProject = .error f → run = (.error f, ledgerProject)) ∧
    ∀ inputs, loadedConfigs s ⟨1772366400, 0⟩ configs ledgerProject = .ok inputs →
      let results := configs.zip (inputs.map CompilationInput.compile)
      let sets := applyOrder (compiledSets results)
      let failed := configs.length - sets.length
      let stored := AuditLog.link (AuditLog.lastHash "")
        (deliveredEvents "./build" false ledgerProject.clock sets)
      run.1 = (if 0 < failed then
          .error { message := toString failed ++ " of " ++ toString configs.length ++ " scope(s) failed to compile" }
        else .ok ()) ∧
      run.2.stderr = ledgerProject.stderr ++ String.join (results.map failureReport) ∧
      stored.map (·.action) = sets.flatMap (fun set =>
        (if set.emergencyOverride.active then [AuditAction.emergencyOverrideActivated] else []) ++
          [AuditAction.policyCompiled]) ∧
      run.2.files.lookup [".pf", "audit.jsonl"] = some ("" ++ AuditLog.written stored) ∧
      AuditLog.verify ("" ++ AuditLog.written stored) = .ok (0 + stored.length) ∧
      ∀ q, q ≠ [".pf", "audit.jsonl"] →
        run.2.files.lookup q =
          ((manifestWrites ["build"] false sets).reverse.lookup q).or (ledgerProject.files.lookup q) := by
  have htime : Instant.readStrict "2026-03-01T12:00:00Z" = .ok ⟨1772366400, 0⟩ := by decide
  have hroot : Workspace.CanonicalPath ledgerProject.root ["srv", "ledger"] :=
    ⟨by decide, by decide, by decide +kernel⟩
  have hlog : LogFile ledgerProject (Settings.forProject ledgerProject.root).auditLog [".pf", "audit.jsonl"] "" :=
    ⟨⟨[".pf", "audit.jsonl"], by decide, by decide, by decide, .inl (by decide +kernel)⟩, by decide,
      by unfold Workspace.Clear; decide, .inr ⟨by decide, rfl⟩⟩
  have hroom : ledgerProject.entry? ["build"] = none := by decide
  have hout : OutputDirectory ledgerProject "./build" ["build"] [".pf", "audit.jsonl"] := by
    refine ⟨⟨[".", "build"], by decide, by decide, by decide, .inr ⟨by decide, by decide +kernel⟩⟩,
      by unfold Workspace.Clear; decide, by decide, fun set => ?_, fun set => by simp⟩
    have hnone := Workspace.entry?_eq_none_of_prefix (List.prefix_append ["build"] [manifestFileName set]) hroom
    rw [hnone]
    simp
  exact ⟨htime, hroot, hlog, rfl, by decide, Instant.onClock_epoch, hout,
    compile_records_compiled_sets htime hroot hlog rfl (by decide) Instant.onClock_epoch fun _ => hout⟩

/-- The project with a directory standing at the place of its set's manifest. -/
def blockedLedgerProject : Workspace :=
  { ledgerProject with
    files := ledgerProject.files ++ [([".pf", "manifests", "project-ledger-prod.json", "keep"], "x")] }

/-- A directory at a manifest's place stops the run at that manifest: it fails,
and the log it opened holds no event. -/
theorem directory_at_manifest_blocks_compile :
    let run := (runCompile (Settings.forProject blockedLedgerProject.root) ["/srv/ledger/ledger.json"] none
      (some "2026-03-01T12:00:00Z") false : ExceptT Failure (StateM Workspace) Unit).run.run blockedLedgerProject
    run.1 = .error
        { message := "failed to write /srv/ledger/.pf/manifests/project-ledger-prod.json"
          causes := ["Is a directory (os error 21)"] } ∧
      run.2 = { blockedLedgerProject with files := blockedLedgerProject.files ++ [([".pf", "audit.jsonl"], "")] } := by
  decide +kernel

end DenyPolicy
