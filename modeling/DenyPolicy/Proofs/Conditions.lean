import DenyPolicy.Proofs.Rules
import DenyPolicy.Proofs.Precedence
/-!
# Condition templates cannot be broken out of

A condition template is fixed text with holes in it.  The business-hours time
zone and the cardholder-environment tag go inside string literals; the window's
two hours, the approvals in force and the session cap go outside them, as
numbers.  `Condition.pieces` spells each template as that sequence of text and
slots, and rendering a template is filling its slots in
(`Condition.render_eq_fill`); an `all` template is its parts in parentheses,
joined by ` && ` (`Condition.render_all`).

Validation keeps quotes and backslashes out of both texts, and the numbers are
written in decimal, so once a compile succeeds no slot adds a quote mark: the
quote marks of an emitted condition are those of its template with the holes
left empty (`Condition.quoteMarks_render`), and so where each string literal
opens and closes is fixed by the template, whatever the values.  The main
statement is `compiled_conditions_confined`.
-/

namespace DenyPolicy

namespace Condition

/-- A hole of a template, named by the value that fills it. -/
inductive Slot where
  | timeZone
  | startHour
  | endHour
  | cdeTag
  | approvals
  | sessionHours
  deriving Repr, DecidableEq

/-- The number a context puts in a numeric slot; none for the two text slots. -/
def Slot.number? (ctx : Context) : Slot → Option Nat
  | .startHour => some ctx.overrides.businessHours.startHour
  | .endHour => some ctx.overrides.businessHours.endHour
  | .approvals => some (ctx.overrides.requiredApprovalsAt ctx.level)
  | .sessionHours => some (ctx.overrides.sessionHours ctx.level)
  | .timeZone | .cdeTag => none

/-- The text a context puts in a slot. -/
def Slot.fill (ctx : Context) : Slot → String
  | .timeZone => ctx.overrides.businessHours.timeZone
  | .startHour => toString ctx.overrides.businessHours.startHour
  | .endHour => toString ctx.overrides.businessHours.endHour
  | .cdeTag => ctx.params.cdeTag
  | .approvals => toString (ctx.overrides.requiredApprovalsAt ctx.level)
  | .sessionHours => toString (ctx.overrides.sessionHours ctx.level)

/-- A piece of a template: fixed text, or a slot. -/
inductive Piece where
  | text (s : String)
  | slot (s : Slot)
  deriving Repr, DecidableEq

/-- The text of a piece in a context. -/
def Piece.fill (ctx : Context) : Piece → String
  | .text s => s
  | .slot s => s.fill ctx

/-- The text of a piece with its slot left empty. -/
def Piece.skeleton : Piece → String
  | .text s => s
  | .slot _ => ""

mutual
/-- A template as text and slots, in the order rendering writes them. -/
def pieces : Condition → List Piece
  | .outsideBusinessHours =>
    [.text "request.time.getHours(\"", .slot .timeZone, .text "\") < ", .slot .startHour,
      .text " || request.time.getHours(\"", .slot .timeZone, .text "\") >= ", .slot .endHour]
  | .missingMfa => [.text "!request.auth.claims.amr.exists(m, m == \"mfa\")"]
  | .missingTag key value => [.text ("!resource.matchTag(\"" ++ key ++ "\", \"" ++ value ++ "\")")]
  | .inCardholderEnvironment => [.text "resource.matchTag(\"", .slot .cdeTag, .text "\", \"in-scope\")"]
  | .insufficientApprovals => [.text "int(request.headers[\"x-change-approvals\"]) < ", .slot .approvals]
  | .sessionOlderThanCap =>
    [.text "request.time - timestamp(request.auth.claims.auth_time) > duration(\"",
      .slot .sessionHours, .text "h\")"]
  | .selfModification => [.text "resource.name.endsWith(request.auth.principal)"]
  | .all parts => partsPieces parts

def partsPieces : List Condition → List Piece
  | [] => []
  | [c] => .text "(" :: pieces c ++ [.text ")"]
  | c :: rest => .text "(" :: pieces c ++ .text ") && " :: partsPieces rest
end

/-- A template with its slots left empty. -/
def skeleton (t : Condition) : String := String.join (t.pieces.map Piece.skeleton)

/-- The quote marks and backslashes of a text, in order: what decides where its
string literals open and close. -/
def quoteMarks (s : String) : List Char := s.toList.filter fun c => c = '"' ∨ c = '\\'

/-! ## Rendering is filling the slots -/

mutual
/-- Rendering a template writes its pieces left to right, so the fill is the
rendering once the appends are reassociated. -/
theorem render_eq_fill (ctx : Context) :
    ∀ t : Condition, t.render ctx = String.join (t.pieces.map (Piece.fill ctx))
  | .all parts => by
      change renderParts ctx parts = _
      rw [pieces, renderParts_eq_fill ctx parts]
  | .outsideBusinessHours | .missingMfa | .missingTag _ _ | .inCardholderEnvironment
  | .insufficientApprovals | .sessionOlderThanCap | .selfModification => by
      simp only [pieces, List.map_cons, List.map_nil, Piece.fill, Slot.fill, String.join_cons,
        String.join_nil, String.append_empty, ← String.append_assoc]
      rfl

theorem renderParts_eq_fill (ctx : Context) :
    ∀ parts : List Condition,
      renderParts ctx parts = String.join ((partsPieces parts).map (Piece.fill ctx))
  | [] => by simp [renderParts, partsPieces]
  | [c] => by
      rw [renderParts, partsPieces, render_eq_fill ctx c]
      simp [Piece.fill, String.join_cons, String.join_append, String.append_assoc]
  | c :: d :: rest => by
      rw [renderParts.eq_3 _ _ _ (List.cons_ne_nil d rest), partsPieces.eq_3 _ _ (List.cons_ne_nil d rest),
        render_eq_fill ctx c, renderParts_eq_fill ctx (d :: rest)]
      simp [Piece.fill, String.join_cons, String.join_append, String.append_assoc]
end

/-- The parts of an `all` template each in parentheses, joined by ` && `. -/
theorem renderParts_eq_intercalate (ctx : Context) :
    ∀ parts : List Condition,
      renderParts ctx parts = " && ".intercalate (parts.map fun p => "(" ++ p.render ctx ++ ")")
  | [] => rfl
  | [c] => by simp [renderParts]
  | c :: d :: rest => by
      have hsep : ") && " = ")" ++ " && " := by decide
      rw [renderParts.eq_3 _ _ _ (List.cons_ne_nil d rest), renderParts_eq_intercalate ctx (d :: rest)]
      simp only [List.map_cons, String.intercalate_cons_cons]
      rw [hsep]
      simp only [String.append_assoc]

theorem render_all (ctx : Context) (parts : List Condition) :
    (Condition.all parts).render ctx =
      " && ".intercalate (parts.map fun p => "(" ++ p.render ctx ++ ")") :=
  renderParts_eq_intercalate ctx parts

/-! ## Quote marks -/

theorem quoteMarks_eq_nil_iff (s : String) :
    quoteMarks s = [] ↔ '"' ∉ s.toList ∧ '\\' ∉ s.toList := by
  simp only [quoteMarks, List.filter_eq_nil_iff, decide_eq_true_eq, not_or]
  constructor
  · intro h
    exact ⟨fun hq => (h _ hq).1 rfl, fun hb => (h _ hb).2 rfl⟩
  · rintro ⟨hq, hb⟩ c hc
    exact ⟨fun h => hq (h ▸ hc), fun h => hb (h ▸ hc)⟩

theorem isDigit_of_mem_toString (n : Nat) {c : Char} (hc : c ∈ (toString n).toList) :
    c.isDigit = true :=
  @Nat.isDigit_of_mem_toDigits 10 n c (by decide) (by decide) (by simpa [Nat.repr] using hc)

theorem quoteMarks_toString (n : Nat) : quoteMarks (toString n) = [] := by
  rw [quoteMarks_eq_nil_iff]
  exact ⟨fun h => absurd (isDigit_of_mem_toString n h) (by decide),
    fun h => absurd (isDigit_of_mem_toString n h) (by decide)⟩

theorem quoteMarks_fill {ctx : Context} (hslots : ∀ s : Slot, quoteMarks (s.fill ctx) = [])
    (ps : List Piece) :
    quoteMarks (String.join (ps.map (Piece.fill ctx))) =
      quoteMarks (String.join (ps.map Piece.skeleton)) := by
  simp only [quoteMarks, String.toList_join, List.filter_flatMap, List.flatMap_map]
  congr 1
  funext p
  cases p with
  | text s => rfl
  | slot s => simpa [quoteMarks, Piece.fill, Piece.skeleton] using hslots s

theorem quoteMarks_render {ctx : Context} (hslots : ∀ s : Slot, quoteMarks (s.fill ctx) = [])
    (t : Condition) : quoteMarks (t.render ctx) = quoteMarks t.skeleton := by
  rw [render_eq_fill, skeleton, quoteMarks_fill hslots]

end Condition

/-! ## What validation guarantees of a context -/

/-- What validation guarantees of the values a context puts into templates: no
quote or backslash in the two texts, a window inside the day, and a session cap
and an approval count of at least one. -/
structure Context.Validated (ctx : Context) : Prop where
  cdeTag_quotable : '"' ∉ ctx.params.cdeTag.toList ∧ '\\' ∉ ctx.params.cdeTag.toList
  timeZone_quotable :
    '"' ∉ ctx.overrides.businessHours.timeZone.toList ∧
      '\\' ∉ ctx.overrides.businessHours.timeZone.toList
  startHour_lt : ctx.overrides.businessHours.startHour < ctx.overrides.businessHours.endHour
  endHour_le : ctx.overrides.businessHours.endHour ≤ 24
  one_le_sessionHours : 1 ≤ ctx.overrides.sessionHours ctx.level
  sessionHours_le : ctx.overrides.sessionHours ctx.level ≤ ctx.level.sessionCeilingHours
  one_le_approvals : 1 ≤ ctx.overrides.requiredApprovalsAt ctx.level

theorem Level.one_le_sessionCeilingHours (l : Level) : 1 ≤ l.sessionCeilingHours := by
  cases l <;> decide

theorem Overrides.sessionHours_le (o : Overrides) (l : Level) :
    o.sessionHours l ≤ l.sessionCeilingHours := by
  unfold Overrides.sessionHours
  split
  · exact Nat.min_le_right _ _
  · exact Nat.le_refl _

theorem Overrides.one_le_sessionHours {o : Overrides} (h : o.maxSessionHours ≠ some 0) (l : Level) :
    1 ≤ o.sessionHours l := by
  have hceiling := Level.one_le_sessionCeilingHours l
  unfold Overrides.sessionHours
  split
  · next n hn =>
    have : n ≠ 0 := fun h0 => h (hn ▸ h0 ▸ rfl)
    exact Nat.le_min.mpr ⟨by omega, hceiling⟩
  · exact hceiling

theorem Overrides.one_le_requiredApprovalsAt {o : Overrides} (h : o.requiredApprovals ≠ some 0)
    (l : Level) : 1 ≤ o.requiredApprovalsAt l := by
  unfold Overrides.requiredApprovalsAt
  split
  · next n hn =>
    have : n ≠ 0 := fun h0 => h (hn ▸ h0 ▸ rfl)
    omega
  · split <;> decide

theorem FrameworkParams.cdeTag_quotable_of_validate {p : FrameworkParams} {scope : String}
    (h : p.validate scope = .ok ()) : '"' ∉ p.cdeTag.toList ∧ '\\' ∉ p.cdeTag.toList := by
  have hchecks : firstFailure (paramChecks scope p) = none := by
    rw [← refusal_validate_params, h, refusal_ok]
  simp only [paramChecks, firstFailure_cons, firstFailure_nil, failUnless] at hchecks
  split_ifs at hchecks with h₁ h₂ h₃ <;> simp_all

theorem Overrides.valid_of_validate {o : Overrides} {scope : String}
    (h : o.validate scope = .ok ()) :
    o.requiredApprovals ≠ some 0 ∧ o.maxSessionHours ≠ some 0 ∧
      o.businessHours.startHour < o.businessHours.endHour ∧ o.businessHours.endHour ≤ 24 ∧
      '"' ∉ o.businessHours.timeZone.toList ∧ '\\' ∉ o.businessHours.timeZone.toList := by
  have hchecks : firstFailure (overrideChecks scope o) = none := by
    rw [← refusal_validate_overrides, h, refusal_ok]
  simp only [overrideChecks, firstFailure_cons, failUnless] at hchecks
  split_ifs at hchecks <;> simp_all

theorem Context.validated_of_validate {ctx : Context} {scope scope' : String}
    (hparams : ctx.params.validate scope = .ok ()) (hoverrides : ctx.overrides.validate scope' = .ok ()) :
    ctx.Validated := by
  obtain ⟨happrovals, hsession, hlt, hle, hquote, hbackslash⟩ :=
    Overrides.valid_of_validate hoverrides
  exact ⟨FrameworkParams.cdeTag_quotable_of_validate hparams, ⟨hquote, hbackslash⟩, hlt, hle,
    Overrides.one_le_sessionHours hsession _, Overrides.sessionHours_le _ _,
    Overrides.one_le_requiredApprovalsAt happrovals _⟩

namespace Condition

variable {ctx : Context}

theorem Slot.fill_of_number? {s : Slot} {n : Nat} (h : s.number? ctx = some n) :
    s.fill ctx = toString n := by
  cases s <;> simp_all [Slot.number?, Slot.fill]

theorem Slot.quoteMarks_fill_of_validated (hctx : ctx.Validated) (s : Slot) :
    quoteMarks (s.fill ctx) = [] := by
  cases s with
  | timeZone => exact (quoteMarks_eq_nil_iff _).mpr hctx.timeZone_quotable
  | cdeTag => exact (quoteMarks_eq_nil_iff _).mpr hctx.cdeTag_quotable
  | startHour | endHour | approvals | sessionHours => exact quoteMarks_toString _

end Condition

/-! ## Compiled conditions -/

theorem walkRule_eq_some {cat : RuleCategory} {ctx : Context} {exceptions : List String}
    {c : Control} {r : DenyRule} (h : walkRule cat ctx exceptions c = some r) :
    r.controlId = c.id ∧ r.condition = c.condition.map (·.render ctx) := by
  rw [← Control.instantiate_eq_walkRule, Control.instantiate_eq_some_iff] at h
  obtain ⟨-, denied, -, rfl⟩ := h
  exact ⟨rfl, rfl⟩

/-- Every rule of a compiled set comes from a control of a walked table and
carries that control's template rendered in the input's context. -/
theorem exists_control_of_compile {i : CompilationInput} {o : Outcome} (h : i.compile = .ok o)
    {r : DenyRule} (hr : r ∈ o.policySet.rules) :
    ∃ tbl ∈ walkedTables i.frameworks, ∃ ctl ∈ tbl.2,
      r.controlId = ctl.id ∧ r.condition = ctl.condition.map (·.render i.context) := by
  obtain ⟨_, _, gate, -, -, -, hassembled⟩ := compile_eq_ok_inv h
  rw [hassembled.rules_eq] at hr
  cases hgate : gate.isOverridden with
  | true => simp [hgate] at hr
  | false =>
      rw [hgate, if_neg Bool.false_ne_true, compiled_eq_tableWalk, tableWalk] at hr
      obtain ⟨tbl, htbl, hmem⟩ := List.mem_flatMap.mp hr
      obtain ⟨ctl, hctl, hwalk⟩ := List.mem_filterMap.mp hmem
      exact ⟨tbl, htbl, ctl, hctl, walkRule_eq_some hwalk⟩

theorem validated_of_compile {i : CompilationInput} {o : Outcome} (h : i.compile = .ok o) :
    i.context.Validated := by
  obtain ⟨scope, t, -, hchecked, -⟩ := compile_eq_ok_inv h
  obtain ⟨-, -, hparams, hoverrides⟩ := CompilationInput.checked_eq_ok_iff.mp hchecked
  exact Context.validated_of_validate hparams hoverrides

/-- Every condition of a compiled policy set is its control's template rendered in
the input's context, with values that cannot leave the literals they are put in.
The context is validated: the cardholder tag and the time zone hold no quote or
backslash, the business-hours window lies in the day, and the session cap and
the approval count are at least one, the cap at most the level's ceiling.  So no
slot holds a quote mark, and a numeric slot is its number in decimal digits.  The
condition is the template's pieces filled in, its quote marks are exactly the
template's with the slots left empty, and an `all` template is its parts in
parentheses joined by ` && `, each part again with its template's quote marks. -/
theorem compiled_conditions_confined {i : CompilationInput} {o : Outcome}
    (h : i.compile = .ok o) :
    i.context.Validated ∧
    (∀ s : Condition.Slot, Condition.quoteMarks (s.fill i.context) = []) ∧
    (∀ (s : Condition.Slot) n, s.number? i.context = some n →
      s.fill i.context = toString n ∧ ∀ c ∈ (s.fill i.context).toList, c.isDigit) ∧
    ∀ r ∈ o.policySet.rules, ∀ c, r.condition = some c →
      ∃ tbl ∈ walkedTables i.frameworks, ∃ ctl ∈ tbl.2, ∃ t,
        ctl.id = r.controlId ∧ ctl.condition = some t ∧ c = t.render i.context ∧
        c = String.join (t.pieces.map (Condition.Piece.fill i.context)) ∧
        Condition.quoteMarks c = Condition.quoteMarks t.skeleton ∧
        ∀ parts, t = .all parts →
          c = " && ".intercalate (parts.map fun p => "(" ++ p.render i.context ++ ")") ∧
          ∀ p ∈ parts, Condition.quoteMarks (p.render i.context) = Condition.quoteMarks p.skeleton := by
  have hctx := validated_of_compile h
  have hslots := Condition.Slot.quoteMarks_fill_of_validated hctx
  refine ⟨hctx, hslots, ?_, ?_⟩
  · intro s n hn
    have hfill := Condition.Slot.fill_of_number? hn
    exact ⟨hfill, fun c hc => Condition.isDigit_of_mem_toString n (hfill ▸ hc)⟩
  · intro r hr c hc
    obtain ⟨tbl, htbl, ctl, hctl, hid, hcond⟩ := exists_control_of_compile h hr
    rw [hc] at hcond
    obtain ⟨t, ht, hrender⟩ := Option.map_eq_some_iff.mp hcond.symm
    subst hrender
    refine ⟨tbl, htbl, ctl, hctl, t, hid.symm, ht, rfl, Condition.render_eq_fill _ t,
      Condition.quoteMarks_render hslots t, ?_⟩
    rintro parts rfl
    exact ⟨Condition.render_all _ parts, fun p _ => Condition.quoteMarks_render hslots p⟩

def vaultInput : CompilationInput :=
  { scope := ⟨.project, "vault-prod"⟩, frameworks := { pciDss := true },
    classification := .internalData, sources := { breakGlassGroup := "sec@x.com" },
    evaluationTime := some Instant.epoch }

theorem vault_conditions_confined :
    ∃ o, vaultInput.compile = .ok o ∧
    vaultInput.context.Validated ∧
    (∀ s : Condition.Slot, Condition.quoteMarks (s.fill vaultInput.context) = []) ∧
    (∀ (s : Condition.Slot) n, s.number? vaultInput.context = some n →
      s.fill vaultInput.context = toString n ∧ ∀ c ∈ (s.fill vaultInput.context).toList, c.isDigit) ∧
    ∀ r ∈ o.policySet.rules, ∀ c, r.condition = some c →
      ∃ tbl ∈ walkedTables vaultInput.frameworks, ∃ ctl ∈ tbl.2, ∃ t,
        ctl.id = r.controlId ∧ ctl.condition = some t ∧ c = t.render vaultInput.context ∧
        c = String.join (t.pieces.map (Condition.Piece.fill vaultInput.context)) ∧
        Condition.quoteMarks c = Condition.quoteMarks t.skeleton ∧
        ∀ parts, t = .all parts →
          c = " && ".intercalate (parts.map fun p => "(" ++ p.render vaultInput.context ++ ")") ∧
          ∀ p ∈ parts,
            Condition.quoteMarks (p.render vaultInput.context) = Condition.quoteMarks p.skeleton :=
  ⟨_, rfl, compiled_conditions_confined rfl⟩

end DenyPolicy
