import DenyPolicy.Proofs.AuditChain
/-!
# Appending to a log that verifies

A command that records events opens the log, keeps the hash of its last line,
and appends one line per event after the text already there.  When that text
ends with a line feed, or is empty, its lines stay as they were and the new
lines follow them (`AuditLog.lines_append`), so the chain check reads the old
lines and then the new ones, which link to the last old line
(`AuditLog.verify_append_link`).

A log whose last line has no feed is different: the first new line is glued
onto that line, and the chain no longer verifies.
-/

namespace DenyPolicy

namespace AuditLog

/-- Whether a log's text ends where a line ends: it is empty, or its last
character is a line feed. -/
def endsLine (text : String) : Bool := text.toList.getLast?.all (· == '\n')

theorem endsLine_cases {text : String} (h : endsLine text = true) :
    text = "" ∨ ∃ ds, text.toList = ds ++ ['\n'] := by
  unfold endsLine at h
  cases hlast : text.toList.getLast? with
  | none => exact Or.inl (String.toList_eq_nil_iff.mp (List.getLast?_eq_none_iff.mp hlast))
  | some c =>
    rw [hlast, Option.all_some, beq_iff_eq] at h
    obtain ⟨ds, hds⟩ := List.getLast?_eq_some_iff.mp hlast
    exact Or.inr ⟨ds, h ▸ hds⟩

/-! ## Lines after an append -/

/-- The lines of a text after one that ends where a line ends are the lines of
each part. -/
theorem splitLines_append {a b : String} (ha : endsLine a = true) :
    splitLines (a ++ b) = splitLines a ++ splitLines b := by
  rcases endsLine_cases ha with rfl | ⟨ds, hds⟩
  · simp [splitLines]
  have hsplit : (a ++ b).toList.splitOn '\n' = ds.splitOn '\n' ++ b.toList.splitOn '\n' := by
    rw [String.toList_append, hds, List.append_assoc, List.singleton_append, List.splitOn_append_cons_self]
  have hsplitA : a.toList.splitOn '\n' = ds.splitOn '\n' ++ [[]] := by
    rw [hds, List.splitOn_append_cons_self, List.splitOn_nil]
  obtain ⟨init, last, hb⟩ : ∃ init last, b.toList.splitOn '\n' = init ++ [last] := by
    simpa using (List.eq_nil_or_concat (b.toList.splitOn '\n')).resolve_left (List.splitOn_ne_nil _ _)
  simp only [splitLines, hsplit, hsplitA, hb, List.map_append, List.map_cons, List.map_nil, List.getLast?_append,
    List.getLast?_singleton, Option.some_or, List.dropLast_append_of_ne_nil (List.cons_ne_nil _ _)]
  by_cases hlast : last = [] <;> simp [hlast]

theorem lines_append {a b : String} (ha : endsLine a = true) : lines (a ++ b) = lines a ++ lines b := by
  rw [lines, splitLines_append ha, List.filter_append]
  rfl

/-! ## The chain check over two parts -/

/-- The chain check over two runs of lines: the first is checked from where the
check starts, and the second from the hash of the first's last line, or from
the same start when the first is empty, with the index past the first's lines. -/
theorem verifyFrom_append {xs ys : List String} {previous : Option String} {index n m : Nat}
    (hxs : verifyFrom previous index xs = .ok n)
    (hys : verifyFrom ((xs.getLast?.map sha256Hex).or previous) (index + n) ys = .ok m) :
    verifyFrom previous index (xs ++ ys) = .ok (n + m) := by
  induction xs generalizing previous index n with
  | nil =>
    obtain rfl : n = 0 := by simpa [verifyFrom] using hxs.symm
    simpa using hys
  | cons l rest ih =>
    unfold verifyFrom at hxs
    cases hread : readEvent l with
    | error e => simp [hread] at hxs
    | ok e =>
      by_cases hlink : e.previousHash = previous
      · cases hrest : verifyFrom (some (sha256Hex l)) (index + 1) rest with
        | error f => simp [hread, hlink, hrest] at hxs
        | ok k =>
          simp only [hread, hlink, hrest, bind, Except.bind, if_true, pure, Except.pure, Except.ok.injEq] at hxs
          subst hxs
          have hlast : ((l :: rest).getLast?.map sha256Hex).or previous =
              (rest.getLast?.map sha256Hex).or (some (sha256Hex l)) := by
            cases h : rest.getLast? <;> simp [List.getLast?_cons, h]
          rw [hlast, show index + (k + 1) = index + 1 + k by omega] at hys
          simp only [List.cons_append, verifyFrom, hread, hlink, ih hrest hys, bind, Except.bind, if_true, pure,
            Except.pure]
          congr 1
          omega
      · simp [hread, hlink] at hxs

/-- Linked events appended to a log that verifies and ends where a line ends
keep it verified, with one count more per event. -/
theorem verify_append_link {text : String} {n : Nat} (hend : endsLine text = true) (hv : verify text = .ok n)
    {es : List AuditEvent} (hes : ∀ e ∈ es, e.Storable) :
    verify (text ++ written (link (lastHash text) es)) = .ok (n + es.length) := by
  rw [verify, lines_append hend, lines_written]
  apply verifyFrom_append hv
  rw [Option.or_none]
  exact verifyFrom_link hes _ _

/-! ## Appending with an open log -/

theorem written_join (xs ys : List AuditEvent) : written (xs ++ ys) = written xs ++ written ys := by
  simp [written, String.join_append]

theorem Writer.appendAll_fst (w : Writer) (es : List AuditEvent) : (w.appendAll es).1 = link w.lastHash es := by
  induction es generalizing w with
  | nil => rfl
  | cons e es ih =>
    simp only [Writer.appendAll, ih, link]
    rfl

theorem Writer.appendAll_append (w : Writer) (xs ys : List AuditEvent) :
    w.appendAll (xs ++ ys) = ((w.appendAll xs).1 ++ ((w.appendAll xs).2.appendAll ys).1,
      ((w.appendAll xs).2.appendAll ys).2) := by
  induction xs generalizing w with
  | nil => rfl
  | cons x xs ih => simp [Writer.appendAll, ih]

end AuditLog

end DenyPolicy
