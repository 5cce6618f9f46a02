import DenyPolicy.Proofs.AuditEvents
/-!
# The hash chain across sessions

A log is written by sessions, each opening the log and appending events; a sink
in memory records events the same way.  Every stored event links to the hash of
the line before it, whichever session wrote that line, because opening a log
recovers the hash of its last line and every line read back is the line
written.

The events stored are the events given, linked in turn (`AuditLog.link`).  The
whole argument rests on one invariant of an open log (`AuditLog.Writer.Wrote`):
its text is the lines of the events stored so far, each ended by a line feed,
and the hash it links the next event to is that of the last of them.  Appending
keeps it, and opening the text it describes restores it, so it holds across
sessions; reading such a text gives back its lines, and so verifying, reading
and taking the tail of the log see the events stored.
-/

namespace DenyPolicy

/-- Records events in turn: the stored events and the sink after them. -/
def MemorySink.recordAll (s : MemorySink) : List AuditEvent → List AuditEvent × MemorySink
  | [] => ([], s)
  | e :: es =>
    let first := s.record e
    let rest := first.2.recordAll es
    (first.1 :: rest.1, rest.2)

namespace AuditLog

def Writer.appendAll (w : Writer) : List AuditEvent → List AuditEvent × Writer
  | [] => ([], w)
  | e :: es =>
    let first := w.append e
    let rest := first.2.appendAll es
    (first.1 :: rest.1, rest.2)

/-- Sessions in turn on a log: each opens the log at the text the one before
left and appends its events.  The stored events of all sessions and the final
text. -/
def runSessions (text : String) : List (List AuditEvent) → List AuditEvent × String
  | [] => ([], text)
  | es :: sessions =>
    let session := (open_ text).appendAll es
    let rest := runSessions session.2.text sessions
    (session.1 ++ rest.1, rest.2)

/-- The text of a log holding the lines of `stored`, each ended by a line feed. -/
def written (stored : List AuditEvent) : String := String.join (stored.map fun e => e.line ++ "\n")

def lastLineHash (stored : List AuditEvent) : Option String := stored.getLast?.map fun e => sha256Hex e.line

/-- Events linked in turn: the first to `previous`, and each next one to the
hash of the line of the one before. -/
def link (previous : Option String) : List AuditEvent → List AuditEvent
  | [] => []
  | e :: es =>
    let stored := { e with previousHash := previous }
    stored :: link (some (sha256Hex stored.line)) es

/-! ## Lines of a log -/

/-- Lines each ended by a feed split at the feeds into the lines and the empty
text after the last feed. -/
theorem splitOn_lines {ls : List (List Char)} (h : ∀ l ∈ ls, '\n' ∉ l) :
    (ls.flatMap (· ++ ['\n'])).splitOn '\n' = ls ++ [[]] := by
  induction ls with
  | nil => rfl
  | cons l ls ih =>
    rw [List.flatMap_cons, List.append_assoc, List.singleton_append,
      List.splitOn_append_cons_self_of_not_mem (h l List.mem_cons_self),
      ih fun l' hl' => h l' (List.mem_cons_of_mem l hl'), List.cons_append]

theorem toList_written (stored : List AuditEvent) :
    (written stored).toList = (stored.map fun e => e.line.toList).flatMap (· ++ ['\n']) := by
  simp [written, String.toList_join, List.flatMap_map]

theorem lines_written (stored : List AuditEvent) : lines (written stored) = stored.map AuditEvent.line := by
  have hsplit := @splitOn_lines (stored.map fun e => e.line.toList) (by
    simpa using fun e _ => e.newline_not_mem_line)
  have hsplitLines : splitLines (written stored) = stored.map AuditEvent.line := by
    simp [splitLines, toList_written, hsplit, Function.comp_def, dropReturn_line]
  rw [lines, hsplitLines, List.filter_eq_self]
  simp [isBlankText_line]

theorem lastHash_written (stored : List AuditEvent) : lastHash (written stored) = lastLineHash stored := by
  simp [lastHash, lines_written, lastLineHash, List.getLast?_map, Function.comp_def]

theorem written_append (stored : List AuditEvent) (e : AuditEvent) :
    written (stored ++ [e]) = written stored ++ e.line ++ "\n" := by
  simp [written, String.join_append, String.append_assoc]

theorem lastLineHash_append (stored : List AuditEvent) (e : AuditEvent) :
    lastLineHash (stored ++ [e]) = some (sha256Hex e.line) := by
  simp [lastLineHash]

/-! ## Linking -/

theorem link_append (done xs ys : List AuditEvent) :
    link (lastLineHash done) (xs ++ ys) =
      link (lastLineHash done) xs ++ link (lastLineHash (done ++ link (lastLineHash done) xs)) ys := by
  induction xs generalizing done with
  | nil => simp [link]
  | cons x xs ih =>
    have hnext := lastLineHash_append done { x with previousHash := lastLineHash done }
    simp only [List.cons_append, link]
    rw [← hnext, ih, List.append_assoc, List.singleton_append]

/-- The `k`-th linked event is the `k`-th event linked to `previous` when it is
the first, and otherwise to the hash of the line of the linked event before
it. -/
theorem getElem?_link (previous : Option String) (es : List AuditEvent) (k : Nat) :
    (link previous es)[k]? = es[k]?.map fun e =>
      { e with previousHash := if k = 0 then previous else (link previous es)[k - 1]?.map fun s => sha256Hex s.line } := by
  induction es generalizing previous k with
  | nil => rfl
  | cons e es ih =>
    cases k with
    | zero => rfl
    | succ k =>
      rw [link, List.getElem?_cons_succ, ih, List.getElem?_cons_succ]
      cases k <;> simp

theorem map_link {β : Type} (f : AuditEvent → β) (hf : ∀ e p, f { e with previousHash := p } = f e)
    (previous : Option String) (es : List AuditEvent) : (link previous es).map f = es.map f := by
  induction es generalizing previous with
  | nil => rfl
  | cons e es ih => rw [link, List.map_cons, List.map_cons, hf, ih]

theorem length_link (previous : Option String) (es : List AuditEvent) : (link previous es).length = es.length := by
  simpa using congrArg List.length (map_link (fun _ => ()) (fun _ _ => rfl) previous es)

theorem storable_link {es : List AuditEvent} (hes : ∀ e ∈ es, e.Storable) (previous : Option String) :
    ∀ s ∈ link previous es, s.Storable := by
  induction es generalizing previous with
  | nil => simp [link]
  | cons e es ih =>
    intro s hs
    rcases List.mem_cons.mp hs with rfl | hs
    · exact (hes e List.mem_cons_self).link previous
    · exact ih (fun e' he' => hes e' (List.mem_cons_of_mem e he')) _ s hs

/-! ## Appending and recording -/

/-- A log opened for appending after the events `stored` were written to it in
turn: its text holds their lines, and the next event links to the last. -/
structure Writer.Wrote (w : Writer) (stored : List AuditEvent) : Prop where
  text_eq : w.text = written stored
  lastHash_eq : w.lastHash = lastLineHash stored

theorem wrote_open (stored : List AuditEvent) : (open_ (written stored)).Wrote stored :=
  ⟨rfl, lastHash_written stored⟩

theorem Writer.Wrote.append {w : Writer} {done : List AuditEvent} (hw : w.Wrote done) (e : AuditEvent) :
    (w.append e).1 = { e with previousHash := lastLineHash done } ∧ (w.append e).2.Wrote (done ++ [(w.append e).1]) := by
  refine ⟨by simp [Writer.append, hw.lastHash_eq], ?_, ?_⟩
  · simp [Writer.append, hw.text_eq, written_append]
  · simp [Writer.append, lastLineHash_append]

/-- Appending events in turn stores them linked, starting from the last line. -/
theorem Writer.Wrote.appendAll {w : Writer} {done : List AuditEvent} (hw : w.Wrote done) (es : List AuditEvent) :
    (w.appendAll es).1 = link (lastLineHash done) es ∧ (w.appendAll es).2.Wrote (done ++ link (lastLineHash done) es) := by
  induction es generalizing w done with
  | nil => exact ⟨rfl, by simpa [Writer.appendAll, link] using hw⟩
  | cons e es ih =>
    obtain ⟨hfirst, hnext⟩ := hw.append e
    rw [hfirst] at hnext
    obtain ⟨hrest, hafter⟩ := ih hnext
    rw [lastLineHash_append] at hrest hafter
    refine ⟨by simp only [Writer.appendAll, link, hfirst, hrest], ?_⟩
    simpa [Writer.appendAll, link, hfirst] using hafter

/-- Sessions on a log that holds the lines of `done` store the events of all
sessions linked in turn from its last line, and leave the lines of all. -/
theorem runSessions_written (done : List AuditEvent) (sessions : List (List AuditEvent)) :
    (runSessions (written done) sessions).1 = link (lastLineHash done) sessions.flatten ∧
      (runSessions (written done) sessions).2 = written (done ++ link (lastLineHash done) sessions.flatten) := by
  induction sessions generalizing done with
  | nil => simp [runSessions, link]
  | cons es sessions ih =>
    obtain ⟨hstored, hafter⟩ := (wrote_open done).appendAll es
    obtain ⟨hrest, htext⟩ := ih (done ++ link (lastLineHash done) es)
    rw [List.flatten_cons, link_append]
    refine ⟨?_, ?_⟩
    · simp only [runSessions, hafter.text_eq, hrest, hstored]
    · simp only [runSessions, hafter.text_eq, htext, List.append_assoc]

/-- Recording events in turn stores them linked, starting from the last one
recorded. -/
theorem recordAll_link (s : MemorySink) (es : List AuditEvent) (hs : s.lastHash = lastLineHash s.events) :
    (s.recordAll es).1 = link s.lastHash es ∧ (s.recordAll es).2.events = s.events ++ link s.lastHash es ∧
      (s.recordAll es).2.lastHash = lastLineHash (s.recordAll es).2.events := by
  induction es generalizing s with
  | nil => exact ⟨rfl, by simp [MemorySink.recordAll, link], hs⟩
  | cons e es ih =>
    have hstep : (s.record e).2.lastHash = lastLineHash (s.record e).2.events := by
      simp [MemorySink.record, lastLineHash_append]
    obtain ⟨hrest, hevents, hlast⟩ := ih (s.record e).2 hstep
    refine ⟨?_, ?_, by simpa only [MemorySink.recordAll] using hlast⟩
    · simp only [MemorySink.recordAll]
      rw [hrest]
      rfl
    · simp only [MemorySink.recordAll]
      rw [hevents]
      simp [MemorySink.record, link]

/-! ## Reading a log back -/

/-- Storable events linked in turn verify from the link of the first. -/
theorem verifyFrom_link {es : List AuditEvent} (hes : ∀ e ∈ es, e.Storable) (previous : Option String)
    (index : Nat) : verifyFrom previous index ((link previous es).map AuditEvent.line) = .ok es.length := by
  induction es generalizing previous index with
  | nil => rfl
  | cons e es ih =>
    have hread := readEvent_line ((hes e List.mem_cons_self).link previous)
    have hrest := ih (fun e' he' => hes e' (List.mem_cons_of_mem e he'))
      (some (sha256Hex ({ e with previousHash := previous } : AuditEvent).line)) (index + 1)
    simp [link, verifyFrom, hread, hrest]

theorem mapM_readEvent {stored : List AuditEvent} (h : ∀ s ∈ stored, s.Storable) :
    (stored.map AuditEvent.line).mapM readEvent = .ok stored := by
  induction stored with
  | nil => rfl
  | cons s stored ih =>
    simp [readEvent_line (h s List.mem_cons_self), ih fun s' hs' => h s' (List.mem_cons_of_mem s hs')]

open JsonText in
theorem readEvent_refused {line : String} {f : JsonText.Fault} (h : AuditEvent.schema.readText line = .error f) :
    readEvent line = .error (.serialization (f.render line.toList)) := by
  simp [readEvent, Schema.readTextOrMessage, h]

/-! ## Sessions on a new log -/

/-- Sessions on a log that starts empty, each opening the log and appending
storable events, store the events given, the first linked to nothing and each
other to the hash of the line before it, whichever session wrote that line.
The log holds the stored lines in order, each the compact document of its event
and a single line.  It verifies with one count per event, reads back as the
stored events, and its tail of `n` is the last `n` of them.  A sink in memory
fed the same events stores the same events and ends at the hash of the log's
last line. -/
theorem audit_chain_across_sessions (sessions : List (List AuditEvent))
    (hstorable : ∀ es ∈ sessions, ∀ e ∈ es, e.Storable) :
    let stored := (runSessions "" sessions).1
    let text := (runSessions "" sessions).2
    (∀ k, stored[k]? = sessions.flatten[k]?.map fun (e : AuditEvent) =>
      { e with previousHash := if k = 0 then none else stored[k - 1]?.map fun (s : AuditEvent) => sha256Hex s.line }) ∧
    text = String.join (stored.map fun e => e.toJson.compact ++ "\n") ∧
    (∀ e ∈ stored, '\n' ∉ e.line.toList) ∧
    verify text = .ok sessions.flatten.length ∧
    readAll text = .ok stored ∧
    (∀ n, tail text n = .ok (stored.drop (stored.length - n))) ∧
    (MemorySink.recordAll {} sessions.flatten).1 = stored ∧
    (MemorySink.recordAll {} sessions.flatten).2.lastHash = lastHash text := by
  dsimp only
  obtain ⟨hstored, htext⟩ := runSessions_written [] sessions
  simp only [lastLineHash, List.getLast?_nil, Option.map_none, List.nil_append] at hstored htext
  change (runSessions "" sessions).1 = _ at hstored
  change (runSessions "" sessions).2 = _ at htext
  have hall : ∀ s ∈ link none sessions.flatten, s.Storable :=
    storable_link (fun e he => by
      obtain ⟨es, hes, he⟩ := List.mem_flatten.mp he
      exact hstorable es hes e he) none
  have hreadAll : readAll (written (link none sessions.flatten)) = .ok (link none sessions.flatten) := by
    rw [readAll, lines_written, mapM_readEvent hall]
  obtain ⟨hsink, hevents, hlast⟩ := recordAll_link {} sessions.flatten rfl
  rw [hstored, htext]
  refine ⟨getElem?_link none sessions.flatten, rfl, fun e _ => e.newline_not_mem_line, ?_, hreadAll, ?_, hsink, ?_⟩
  · rw [verify, lines_written, verifyFrom_link (fun s hs => ?_)]
    obtain ⟨es, hes, he⟩ := List.mem_flatten.mp hs
    exact hstorable es hes s he
  · intro n
    simp [tail, hreadAll]
  · rw [hlast, hevents, lastHash_written]
    rfl

/-- A compiled set recorded in one session, then an emergency override and a
denied request in the next. -/
def ledgerSessions : List (List AuditEvent) :=
  [[{ scope := "ledger-prod", action := .policyCompiled,
      metadata := .obj [("compliance_level", .str "high"), ("digest", .str "0f"), ("rule_count", .num (.nat 1))] }],
   [{ scope := "ledger-prod", action := .emergencyOverrideActivated, detail := some "incident INC-7" },
    AuditEvent.violation "ledger-prod" "pci-deny-export" "user:eve@ledger.example" "bigquery.tables.export"]]

theorem ledger_sessions_chain :
    (∀ es ∈ ledgerSessions, ∀ e ∈ es, e.Storable) ∧
    let stored := (runSessions "" ledgerSessions).1
    let text := (runSessions "" ledgerSessions).2
    (∀ k, stored[k]? = ledgerSessions.flatten[k]?.map fun (e : AuditEvent) =>
      { e with previousHash := if k = 0 then none else stored[k - 1]?.map fun (s : AuditEvent) => sha256Hex s.line }) ∧
    text = String.join (stored.map fun e => e.toJson.compact ++ "\n") ∧
    (∀ e ∈ stored, '\n' ∉ e.line.toList) ∧
    verify text = .ok ledgerSessions.flatten.length ∧
    readAll text = .ok stored ∧
    (∀ n, tail text n = .ok (stored.drop (stored.length - n))) ∧
    (MemorySink.recordAll {} ledgerSessions.flatten).1 = stored ∧
    (MemorySink.recordAll {} ledgerSessions.flatten).2.lastHash = lastHash text := by
  have hstorable : ∀ es ∈ ledgerSessions, ∀ e ∈ es, e.Storable := by
    simp only [ledgerSessions, List.mem_cons, List.mem_nil_iff, or_false, forall_eq_or_imp, forall_eq]
    refine ⟨⟨Uuid.canonical_nil, Instant.onClock_epoch, .obj (by decide) ?_⟩,
      .of_defaults rfl rfl rfl, .of_defaults rfl rfl rfl⟩
    simp only [List.mem_cons, List.mem_nil_iff, or_false, forall_eq_or_imp, forall_eq]
    exact ⟨.str _, .str _, .nat (by decide)⟩
  exact ⟨hstorable, audit_chain_across_sessions ledgerSessions hstorable⟩

/-! ## Metadata one level too deep -/

/-- An event whose metadata nests 127 arrays, one level more than a stored line
keeps. -/
def deeplyNestedEvent : AuditEvent :=
  { scope := "ledger-prod", action := .policyCompiled, metadata := Json.nestedArrays 127 }

open JsonText in
/-- The line of the deeply nested event is refused: the reader gets through the
members before the metadata and refuses the array at its limit. -/
theorem deeplyNested_line_refused :
    ∃ f, AuditEvent.schema.readText ({ deeplyNestedEvent with previousHash := none } : AuditEvent).line = .error f := by
  have hid : Uuid.parse? Uuid.nil.render = some Uuid.nil := Uuid.parse?_render Uuid.canonical_nil
  have htime : Instant.readRelaxedOrFault Instant.epoch.render = .ok Instant.epoch :=
    Instant.readRelaxedOrFault_render Instant.onClock_epoch
  have hfields : ({ deeplyNestedEvent with previousHash := none } : AuditEvent).toJson =
      .obj ([("event_id", .str Uuid.nil.render), ("timestamp", .str Instant.epoch.render),
        ("scope", .str "ledger-prod"), ("action", .str "policy_compiled"), ("previous_hash", .null)] ++
        ("metadata", Json.nestedArrays 127) :: []) := by
    rw [AuditEvent.toJson_eq]
    rfl
  obtain ⟨f, hf⟩ : ∃ f, readAs (2 * ({ deeplyNestedEvent with previousHash := none } : AuditEvent).line.toList.length + 64) 0
      AuditEvent.schema (({ deeplyNestedEvent with previousHash := none } : AuditEvent).line.toList ++ []) = .error f := by
    have hweight := Json.weight_le_length .compact 0 ({ deeplyNestedEvent with previousHash := none } : AuditEvent).toJson
    rw [AuditEvent.line, ← Json.layout_compact 0, hfields]
    rw [hfields] at hweight
    unfold AuditEvent.schema
    refine readAs_record_refused .compact 0 ?_ rfl
      (fun fuel more => readAs_anything_refused (fun fuel => readAny_nestedArrays_refused .compact 126 (by decide) 1 fuel more) fuel)
      (Nat.lt_of_le_of_lt hweight (by omega)) []
    simp only [List.mem_cons, List.mem_nil_iff, or_false]
    rintro kv (rfl | rfl | rfl | rfl | rfl)
    · exact ⟨_, _, rfl, readsBack_parsed (by simp [hid]) 1⟩
    · exact ⟨_, _, rfl, readsBack_parsed (by simp [htime]) 1⟩
    · exact ⟨_, _, rfl, readsBack_text 1 _⟩
    · exact ⟨_, _, rfl, readsBack_choice _ _ 1 (by decide)⟩
    · exact ⟨_, _, rfl, readsBack_optional_null _ 1⟩
  rw [List.append_nil] at hf
  exact ⟨f, by simp [Schema.readText, hf]⟩

/-- An event whose metadata nests 127 arrays is appended to a new log, which then
does not verify: the chain breaks at its only line. -/
theorem deep_metadata_breaks_chain : verify (runSessions "" [[deeplyNestedEvent]]).2 ≠ .ok 1 := by
  obtain ⟨-, htext⟩ := runSessions_written [] [[deeplyNestedEvent]]
  change (runSessions "" _).2 = _ at htext
  obtain ⟨f, hf⟩ := deeplyNested_line_refused
  rw [htext]
  simp [lastLineHash, link, verify, lines_written, verifyFrom, readEvent_refused hf]

end AuditLog

end DenyPolicy
