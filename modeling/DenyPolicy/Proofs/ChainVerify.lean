import DenyPolicy.Proofs.AuditChain
/-!
# What verifying a log answers

Verifying a log reads its non-blank lines in order, keeping the hash of the line
before.  It answers the number of lines when every line is an event linked to
that hash, the first line to nothing.  Otherwise it answers the fault of the
first line that is not: the reader's error for a line that is no event, and for
a line whose link differs an integrity violation naming the line, counted from
one among the non-blank lines, the link expected and the link found, each
written `none` when absent.

The scan is described line by line by `LinksAt` and `BreaksAt`, and each answer
is characterised for a scan from any link and any line number
(`verifyFrom_eq_ok_iff`, `verifyFrom_eq_error_iff`).  Editing one line of an
intact log into another event with the same link therefore moves the break to
the line after it, whose link still names the old line.
-/

namespace DenyPolicy

namespace AuditLog

/-- The link the `i`-th line of `ls` (from zero) must carry when the line before
the first hashes to `previous`: `previous` for the first line, and the hash of
the line before it for every other. -/
def linkBefore (previous : Option String) (ls : List String) (i : Nat) : Option String :=
  if i = 0 then previous else ls[i - 1]?.map sha256Hex

/-- The `i`-th line, if there is one, is an event carrying the link expected of it. -/
def LinksAt (previous : Option String) (ls : List String) (i : Nat) : Prop :=
  ∀ l, ls[i]? = some l → ∃ e, readEvent l = .ok e ∧ e.previousHash = linkBefore previous ls i

/-- The `i`-th line breaks the chain with `err`, lines being numbered from `index`:
it is no event and `err` is the reader's error, or its link is not the one
expected and `err` names the line, the link expected and the link found. -/
def BreaksAt (previous : Option String) (index : Nat) (ls : List String) (i : Nat)
    (err : AuditError) : Prop :=
  ∃ l, ls[i]? = some l ∧
    ((∃ reason, readEvent l = .error (.serialization reason) ∧ err = .serialization reason) ∨
      ∃ e, readEvent l = .ok e ∧ e.previousHash ≠ linkBefore previous ls i ∧
        err = .integrityViolation (index + i) ((linkBefore previous ls i).getD "none")
          (e.previousHash.getD "none"))

section Scan

variable {previous : Option String} {index : Nat} {l : String} {ls : List String}

theorem readEvent_eq_error {line : String} {err : AuditError} (h : readEvent line = .error err) :
    ∃ reason, err = .serialization reason := by
  unfold readEvent at h
  split at h
  · split at h
    · cases h
    · cases h
      exact ⟨_, rfl⟩
  · cases h
    exact ⟨_, rfl⟩

@[simp] theorem linkBefore_zero : linkBefore previous ls 0 = previous := rfl

@[simp] theorem linkBefore_cons_succ (i : Nat) :
    linkBefore previous (l :: ls) (i + 1) = linkBefore (some (sha256Hex l)) ls i := by
  cases i <;> simp [linkBefore]

theorem linksAt_cons_zero :
    LinksAt previous (l :: ls) 0 ↔ ∃ e, readEvent l = .ok e ∧ e.previousHash = previous := by
  simp [LinksAt]

theorem linksAt_cons_succ (i : Nat) :
    LinksAt previous (l :: ls) (i + 1) ↔ LinksAt (some (sha256Hex l)) ls i := by
  simp [LinksAt]

theorem forall_linksAt_cons :
    (∀ i, LinksAt previous (l :: ls) i) ↔
      LinksAt previous (l :: ls) 0 ∧ ∀ i, LinksAt (some (sha256Hex l)) ls i := by
  constructor
  · intro h
    exact ⟨h 0, fun i => (linksAt_cons_succ i).mp (h (i + 1))⟩
  · rintro ⟨hfirst, hrest⟩ (_ | i)
    · exact hfirst
    · exact (linksAt_cons_succ i).mpr (hrest i)

theorem forall_lt_linksAt_cons (i : Nat) :
    (∀ j < i + 1, LinksAt previous (l :: ls) j) ↔
      LinksAt previous (l :: ls) 0 ∧ ∀ j < i, LinksAt (some (sha256Hex l)) ls j := by
  constructor
  · intro h
    exact ⟨h 0 (Nat.succ_pos i), fun j hj => (linksAt_cons_succ j).mp (h (j + 1) (by omega))⟩
  · rintro ⟨hfirst, hrest⟩ (_ | j) hj
    · exact hfirst
    · exact (linksAt_cons_succ j).mpr (hrest j (by omega))

theorem breaksAt_cons_zero {err : AuditError} :
    BreaksAt previous index (l :: ls) 0 err ↔
      (∃ reason, readEvent l = .error (.serialization reason) ∧ err = .serialization reason) ∨
        ∃ e, readEvent l = .ok e ∧ e.previousHash ≠ previous ∧
          err = .integrityViolation index (previous.getD "none") (e.previousHash.getD "none") := by
  simp [BreaksAt]

theorem breaksAt_cons_succ (i : Nat) {err : AuditError} :
    BreaksAt previous index (l :: ls) (i + 1) err ↔ BreaksAt (some (sha256Hex l)) (index + 1) ls i err := by
  simp only [BreaksAt, List.getElem?_cons_succ, linkBefore_cons_succ, Nat.add_assoc, Nat.add_comm 1 i]

/-- One line read: it must be an event linked to `previous`, and the rest is
scanned from its hash. -/
theorem verifyFrom_cons_eq_ok_iff {n : Nat} :
    verifyFrom previous index (l :: ls) = .ok n ↔
      ∃ e, readEvent l = .ok e ∧ e.previousHash = previous ∧
        ∃ m, verifyFrom (some (sha256Hex l)) (index + 1) ls = .ok m ∧ n = m + 1 := by
  simp only [verifyFrom]
  cases hread : readEvent l with
  | error err => simp [bind, Except.bind]
  | ok e =>
    by_cases hlink : e.previousHash = previous
    · cases verifyFrom (some (sha256Hex l)) (index + 1) ls <;>
        simp [bind, Except.bind, hlink, pure, Except.pure, eq_comm]
    · simp [bind, Except.bind, hlink]

theorem verifyFrom_cons_eq_error_iff {err : AuditError} :
    verifyFrom previous index (l :: ls) = .error err ↔
      readEvent l = .error err ∨ ∃ e, readEvent l = .ok e ∧
        ((e.previousHash ≠ previous ∧
            err = .integrityViolation index (previous.getD "none") (e.previousHash.getD "none")) ∨
          (e.previousHash = previous ∧ verifyFrom (some (sha256Hex l)) (index + 1) ls = .error err)) := by
  simp only [verifyFrom]
  cases hread : readEvent l with
  | error err' => simp [bind, Except.bind]
  | ok e =>
    by_cases hlink : e.previousHash = previous
    · cases verifyFrom (some (sha256Hex l)) (index + 1) ls <;>
        simp [bind, Except.bind, hlink, pure, Except.pure]
    · have hlink' : previous ≠ e.previousHash := fun h => hlink h.symm
      simp [bind, Except.bind, hlink, hlink', eq_comm]

end Scan

/-- A scan succeeds, counting the lines, exactly when every line is an event
carrying the link expected of it. -/
theorem verifyFrom_eq_ok_iff {n : Nat} : ∀ {previous : Option String} {index : Nat} {ls : List String},
    verifyFrom previous index ls = .ok n ↔ n = ls.length ∧ ∀ i, LinksAt previous ls i
  | previous, index, [] => by simp [verifyFrom, LinksAt, eq_comm]
  | previous, index, l :: ls => by
      rw [verifyFrom_cons_eq_ok_iff, forall_linksAt_cons, linksAt_cons_zero]
      constructor
      · rintro ⟨e, hread, hlink, m, hrest, rfl⟩
        obtain ⟨rfl, hall⟩ := verifyFrom_eq_ok_iff.mp hrest
        exact ⟨rfl, ⟨e, hread, hlink⟩, hall⟩
      · rintro ⟨rfl, ⟨e, hread, hlink⟩, hall⟩
        exact ⟨e, hread, hlink, ls.length, verifyFrom_eq_ok_iff.mpr ⟨rfl, hall⟩, rfl⟩

/-- A scan fails exactly at its first line that breaks the chain, with that
line's fault. -/
theorem verifyFrom_eq_error_iff {err : AuditError} :
    ∀ {previous : Option String} {index : Nat} {ls : List String},
      verifyFrom previous index ls = .error err ↔
        ∃ i, (∀ j < i, LinksAt previous ls j) ∧ BreaksAt previous index ls i err
  | previous, index, [] => by simp [verifyFrom, BreaksAt]
  | previous, index, l :: ls => by
      rw [verifyFrom_cons_eq_error_iff]
      constructor
      · rintro (hread | ⟨e, hread, ⟨hlink, rfl⟩ | ⟨hlink, hrest⟩⟩)
        · obtain ⟨reason, rfl⟩ := readEvent_eq_error hread
          exact ⟨0, by simp, breaksAt_cons_zero.mpr (.inl ⟨reason, hread, rfl⟩)⟩
        · exact ⟨0, by simp, breaksAt_cons_zero.mpr (.inr ⟨e, hread, hlink, rfl⟩)⟩
        · obtain ⟨i, hbefore, hbreak⟩ := verifyFrom_eq_error_iff.mp hrest
          exact ⟨i + 1, (forall_lt_linksAt_cons i).mpr ⟨linksAt_cons_zero.mpr ⟨e, hread, hlink⟩, hbefore⟩,
            (breaksAt_cons_succ i).mpr hbreak⟩
      · rintro ⟨_ | i, hbefore, hbreak⟩
        · rcases breaksAt_cons_zero.mp hbreak with ⟨reason, hread, rfl⟩ | ⟨e, hread, hlink, rfl⟩
          · exact .inl hread
          · exact .inr ⟨e, hread, .inl ⟨hlink, rfl⟩⟩
        · obtain ⟨hfirst, hbefore⟩ := (forall_lt_linksAt_cons i).mp hbefore
          obtain ⟨e, hread, hlink⟩ := linksAt_cons_zero.mp hfirst
          exact .inr ⟨e, hread, .inr ⟨hlink, verifyFrom_eq_error_iff.mpr
            ⟨i, hbefore, (breaksAt_cons_succ i).mp hbreak⟩⟩⟩

/-! ## An edited line -/

theorem linkBefore_set_of_le {previous : Option String} {ls : List String} {k j : Nat} (hj : j ≤ k)
    (l' : String) : linkBefore previous (ls.set k l') j = linkBefore previous ls j := by
  unfold linkBefore
  split
  · rfl
  · rw [List.getElem?_set_ne (by omega)]

/-- In a chain that holds, replacing the `k`-th line by another event with the
same link breaks the chain at the line after it, whose link names the old line:
the lines before the edit are untouched, and the edited line carries the link
the old one did. -/
theorem verifyFrom_edited {previous : Option String} {index : Nat} {ls : List String}
    (hchain : ∀ i, LinksAt previous ls i) {k : Nat} {l l' : String} {e e' : AuditEvent}
    (hl : ls[k]? = some l) (hnext : k + 1 < ls.length) (hread : readEvent l = .ok e)
    (hread' : readEvent l' = .ok e') (hsame : e'.previousHash = e.previousHash)
    (hhash : sha256Hex l' ≠ sha256Hex l) :
    verifyFrom previous index (ls.set k l') =
      .error (.integrityViolation (index + (k + 1)) (sha256Hex l') (sha256Hex l)) := by
  have hk : k < ls.length := by omega
  obtain ⟨l₂, hl₂⟩ : ∃ l₂, ls[k + 1]? = some l₂ := ⟨_, List.getElem?_eq_getElem hnext⟩
  obtain ⟨e₂, hread₂, hlink₂⟩ := hchain (k + 1) l₂ hl₂
  have hlinkOld : e₂.previousHash = some (sha256Hex l) := by
    simp [hlink₂, linkBefore, hl]
  apply verifyFrom_eq_error_iff.mpr
  refine ⟨k + 1, fun j hj => ?_, l₂, by rw [List.getElem?_set_ne (by omega), hl₂], .inr ⟨e₂, hread₂, ?_, ?_⟩⟩
  · intro m hm
    rw [linkBefore_set_of_le (Nat.le_of_lt_succ hj)]
    by_cases hjk : j = k
    · subst hjk
      rw [List.getElem?_set_self hk, Option.some.injEq] at hm
      subst hm
      obtain ⟨e₀, hread₀, hlink₀⟩ := hchain j l hl
      rw [hread, Except.ok.injEq] at hread₀
      subst hread₀
      exact ⟨e', hread', hsame.trans hlink₀⟩
    · rw [List.getElem?_set_ne (Ne.symm hjk)] at hm
      exact hchain j m hm
  · rw [hlinkOld]
    simp [linkBefore, List.getElem?_set_self hk, Ne.symm hhash]
  · simp [hlinkOld, linkBefore, List.getElem?_set_self hk]

/-- The answer of verifying any log.  It counts the non-blank lines exactly when
each is an event linked to the line before, the first to nothing; otherwise it is
the fault of the first line that is not, numbered from one among the non-blank
lines.  In particular, in a log that verifies, editing a line before the last
into a different event with the same link, whose hash differs from the old
line's, breaks the chain at the next line: the link expected is the hash of the
edited line and the link found that of the old one. -/
theorem verify_answer (text : String) :
    (∀ n, verify text = .ok n ↔ n = (lines text).length ∧ ∀ i, LinksAt none (lines text) i) ∧
    (∀ err, verify text = .error err ↔
      ∃ i, (∀ j < i, LinksAt none (lines text) j) ∧ BreaksAt none 1 (lines text) i err) ∧
    ∀ n k l l' e e', verify text = .ok n → (lines text)[k]? = some l → k + 1 < n →
      readEvent l = .ok e → readEvent l' = .ok e' → e'.previousHash = e.previousHash → l' ≠ l →
      (sha256Hex l' = sha256Hex l → l' = l) →
      ∀ text', lines text' = (lines text).set k l' →
        verify text' = .error (.integrityViolation (k + 2) (sha256Hex l') (sha256Hex l)) := by
  refine ⟨fun n => verifyFrom_eq_ok_iff, fun err => verifyFrom_eq_error_iff, ?_⟩
  intro n k l l' e e' hverify hl hk hread hread' hsame hne hcollision text' htext'
  obtain ⟨rfl, hchain⟩ := verifyFrom_eq_ok_iff.mp hverify
  rw [verify, htext', verifyFrom_edited hchain hl hk hread hread' hsame (mt hcollision hne)]
  congr 2
  omega

/-- A compiled set recorded for the ledger. -/
def ledgerCompiled : AuditEvent := { scope := "ledger-prod", action := .policyCompiled }

/-- A compiled set recorded for billing. -/
def billingCompiled : AuditEvent := { scope := "billing-prod", action := .policyCompiled }

/-- The ledger's record rewritten to name another scope. -/
def forgedCompiled : AuditEvent := { scope := "forged-prod", action := .policyCompiled }

/-- A log of the ledger's and billing's records whose first line is replaced by
the forged record breaks at its second line. -/
theorem forged_first_line_breaks_second :
    let text := written (link none [ledgerCompiled, billingCompiled])
    let text' := written (forgedCompiled :: (link none [ledgerCompiled, billingCompiled]).drop 1)
    verify text = .ok 2 ∧ (lines text)[0]? = some ledgerCompiled.line ∧ 0 + 1 < 2 ∧
      readEvent ledgerCompiled.line = .ok ledgerCompiled ∧
      readEvent forgedCompiled.line = .ok forgedCompiled ∧
      forgedCompiled.previousHash = ledgerCompiled.previousHash ∧
      forgedCompiled.line ≠ ledgerCompiled.line ∧
      (sha256Hex forgedCompiled.line = sha256Hex ledgerCompiled.line → forgedCompiled.line = ledgerCompiled.line) ∧
      lines text' = (lines text).set 0 forgedCompiled.line ∧
      verify text' = .error (.integrityViolation (0 + 2) (sha256Hex forgedCompiled.line)
        (sha256Hex ledgerCompiled.line)) := by
  intro text text'
  have hstorable : ∀ e ∈ [ledgerCompiled, billingCompiled], e.Storable := by
    simp only [List.mem_cons, List.mem_nil_iff, or_false, forall_eq_or_imp, forall_eq]
    exact ⟨.of_defaults rfl rfl rfl, .of_defaults rfl rfl rfl⟩
  have hverify : verify text = .ok 2 := by
    rw [verify, lines_written, verifyFrom_link hstorable]
    rfl
  have hfirst : (lines text)[0]? = some ledgerCompiled.line := by
    rw [lines_written]
    rfl
  have hread := readEvent_line (e := ledgerCompiled) (.of_defaults rfl rfl rfl)
  have hread' := readEvent_line (e := forgedCompiled) (.of_defaults rfl rfl rfl)
  have hne : forgedCompiled.line ≠ ledgerCompiled.line := by
    intro h
    rw [h, hread, Except.ok.injEq] at hread'
    exact absurd (congrArg AuditEvent.scope hread') (by decide)
  have hcollision : sha256Hex forgedCompiled.line = sha256Hex ledgerCompiled.line →
      forgedCompiled.line = ledgerCompiled.line :=
    fun h => absurd h (by decide +kernel)
  have hlines : lines text' = (lines text).set 0 forgedCompiled.line := by
    rw [lines_written, lines_written]
    rfl
  exact ⟨hverify, hfirst, by decide, hread, hread', rfl, hne, hcollision, hlines,
    (verify_answer text).2.2 2 0 _ _ _ _ hverify hfirst (by decide) hread hread' rfl hne hcollision
      text' hlines⟩

end AuditLog

end DenyPolicy
