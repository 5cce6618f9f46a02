import DenyPolicy.Proofs.JsonValues
import DenyPolicy.Proofs.Timestamps
import DenyPolicy.Audit.Chain
/-!
# Stored events read back

An audit event is stored as the compact text of its document on a line of its
own, and read back from that line by the schema of events and the decoder.  A
line gives back the event that was written (`AuditLog.readEvent_line`) when
the event is *storable* (`AuditEvent.Storable`): its identifier is one the
reader makes, thirty-two lowercase hexadecimal digits; its timestamp is one a
calendar clock can hold; and its metadata is keyed within one level fewer than
the reader allows, since the event's own object takes one level.

The line of an event has no line feed and is not blank, so a log split at its
line feeds gives back the lines that were written.
-/

namespace DenyPolicy

namespace Uuid

/-- The digits of a UUID as the reader leaves them: thirty-two lowercase
hexadecimal digits. -/
structure Canonical (u : Uuid) : Prop where
  length_digits : u.digits.length = 32
  lower : ∀ c ∈ u.digits, hexLower? c = some c

theorem mapM_hexLower {cs : List Char} (h : ∀ c ∈ cs, hexLower? c = some c) : cs.mapM hexLower? = some cs := by
  induction cs with
  | nil => rfl
  | cons c cs ih =>
    simp [h c List.mem_cons_self, ih fun d hd => h d (List.mem_cons_of_mem c hd)]

theorem ne_hyphen_of_hexLower {c : Char} (h : hexLower? c = some c) : c ≠ '-' := by
  rintro rfl
  exact absurd h (by decide)

theorem toList_render (u : Uuid) :
    u.render.toList = u.digits.take 8 ++ '-' :: ((u.digits.drop 8).take 4 ++ '-' :: ((u.digits.drop 12).take 4 ++
      '-' :: ((u.digits.drop 16).take 4 ++ '-' :: u.digits.drop 20))) := by
  simp [render]

theorem groups_append (d : List Char) :
    d.take 8 ++ (d.drop 8).take 4 ++ (d.drop 12).take 4 ++ (d.drop 16).take 4 ++ d.drop 20 = d := by
  have h8 : (d.drop 8).take 4 ++ d.drop 12 = d.drop 8 := by
    rw [show 12 = 8 + 4 from rfl, ← List.drop_drop, List.take_append_drop]
  have h12 : (d.drop 12).take 4 ++ d.drop 16 = d.drop 12 := by
    rw [show 16 = 12 + 4 from rfl, ← List.drop_drop, List.take_append_drop]
  have h16 : (d.drop 16).take 4 ++ d.drop 20 = d.drop 16 := by
    rw [show 20 = 16 + 4 from rfl, ← List.drop_drop, List.take_append_drop]
  simp only [List.append_assoc, h16, h12, h8, List.take_append_drop]

/-- The reader gives back a canonical UUID from its hyphenated text. -/
theorem parse?_render {u : Uuid} (hu : u.Canonical) : parse? u.render = some u := by
  obtain ⟨d⟩ := u
  have hlen : d.length = 32 := hu.length_digits
  have hno : ∀ {g : List Char}, g.Sublist d → '-' ∉ g := fun hg hmem =>
    ne_hyphen_of_hexLower (hu.lower _ (hg.subset hmem)) rfl
  have hsplit : (render ⟨d⟩).toList.splitOn '-' =
      [d.take 8, (d.drop 8).take 4, (d.drop 12).take 4, (d.drop 16).take 4, d.drop 20] := by
    rw [toList_render]
    simp only
    rw [List.splitOn_append_cons_self_of_not_mem (hno (List.take_sublist _ _)),
      List.splitOn_append_cons_self_of_not_mem (hno ((List.take_sublist _ _).trans (List.drop_sublist _ _))),
      List.splitOn_append_cons_self_of_not_mem (hno ((List.take_sublist _ _).trans (List.drop_sublist _ _))),
      List.splitOn_append_cons_self_of_not_mem (hno ((List.take_sublist _ _).trans (List.drop_sublist _ _))),
      List.splitOn_eq_singleton (hno (List.drop_sublist _ _))]
  have hlength : (render ⟨d⟩).toList.length = 36 := by
    rw [toList_render]
    simp [hlen]
  have hdigits : d.mapM hexLower? = some d := mapM_hexLower hu.lower
  simp only [parse?, hlength, hyphenated?, hsplit, groups_append]
  simp [hlen, ofDigits?, hdigits]

end Uuid

/-! ## One line an event -/

namespace Json

theorem hexDigit_ne_newline : ∀ n, n < 16 → hexDigit n ≠ '\n' := by decide

theorem newline_not_mem_escapeChar (c : Char) : '\n' ∉ escapeChar c := by
  have hlow : c.toNat < 32 → hexDigit (c.toNat / 16) ≠ '\n' ∧ hexDigit (c.toNat % 16) ≠ '\n' := fun h =>
    ⟨hexDigit_ne_newline _ (by omega), hexDigit_ne_newline _ (Nat.mod_lt _ (by decide))⟩
  unfold escapeChar
  repeat' split
  all_goals simp_all [eq_comm]

theorem newline_not_mem_quote (s : String) : '\n' ∉ (quote s).toList := by
  simp [JsonText.toList_quote, newline_not_mem_escapeChar]

theorem newline_not_mem_render (n : Numeral) : '\n' ∉ n.render.toList := fun h =>
  absurd (List.all_eq_true.mp (Numeral.render_numberChars n).2 _ h) (by decide)

mutual
/-- The compact text of a value is one line. -/
theorem newline_not_mem_compact : ∀ v : Json, '\n' ∉ v.compact.toList
  | .null => by decide
  | .bool true => by decide
  | .bool false => by decide
  | .num n => newline_not_mem_render n
  | .str s => newline_not_mem_quote s
  | .arr xs => by
    have hitems := newline_not_mem_compactItems xs
    simp [compact, String.toList_append, hitems]
  | .obj fs => by
    have hfields := newline_not_mem_compactFields fs
    simp [compact, String.toList_append, hfields]

theorem newline_not_mem_compactItems : ∀ xs : List Json, '\n' ∉ (compactItems xs).toList
  | [] => by simp [compactItems]
  | [x] => by simpa [compactItems] using newline_not_mem_compact x
  | x :: y :: ys => by
    have hx := newline_not_mem_compact x
    have hys := newline_not_mem_compactItems (y :: ys)
    simp [compactItems, String.toList_append, hx, hys]

theorem newline_not_mem_compactFields : ∀ fs : List (String × Json), '\n' ∉ (compactFields fs).toList
  | [] => by simp [compactFields]
  | [(k, x)] => by
    have hk := newline_not_mem_quote k
    have hx := newline_not_mem_compact x
    simp [compactFields, String.toList_append, hk, hx]
  | (k, x) :: f :: fs => by
    have hk := newline_not_mem_quote k
    have hx := newline_not_mem_compact x
    have hfs := newline_not_mem_compactFields (f :: fs)
    simp [compactFields, String.toList_append, hk, hx, hfs]
end

end Json

@[simp] theorem AuditAction.ofName?_name (a : AuditAction) : AuditAction.ofName? a.name = some a := by
  cases a <;> rfl

theorem Uuid.canonical_nil : Uuid.nil.Canonical :=
  ⟨List.length_replicate, fun c hc => by rw [List.eq_of_mem_replicate hc]; rfl⟩

theorem Instant.onClock_epoch : Instant.epoch.OnClock :=
  ⟨by decide, by decide, fun h => absurd h (by decide)⟩

namespace AuditEvent

/-- An event that its stored line gives back: an identifier of the reader's
form, a time a calendar clock can hold, and metadata keyed within one level
fewer than the reader allows, the level the event's own object takes. -/
structure Storable (e : AuditEvent) : Prop where
  canonical_id : e.eventId.Canonical
  on_clock : e.timestamp.OnClock
  keyed_metadata : e.metadata.Keyed (JsonText.maxDepth - 1)

theorem Storable.of_defaults {e : AuditEvent} (hid : e.eventId = Uuid.nil) (htime : e.timestamp = Instant.epoch)
    (hmetadata : e.metadata = .null) : e.Storable := by
  refine ⟨?_, ?_, ?_⟩
  · rw [hid]; exact Uuid.canonical_nil
  · rw [htime]; exact Instant.onClock_epoch
  · rw [hmetadata]; exact .null

theorem Storable.link {e : AuditEvent} (he : e.Storable) (previous : Option String) :
    ({ e with previousHash := previous } : AuditEvent).Storable :=
  ⟨he.canonical_id, he.on_clock, he.keyed_metadata⟩

theorem toJson_eq (e : AuditEvent) :
    e.toJson = .obj (("event_id", .str e.eventId.render) :: ("timestamp", .str e.timestamp.render) ::
      ("scope", .str e.scope) :: ("action", .str e.action.name) ::
      ((e.ruleName.map fun s => ("rule_name", Json.str s)).toList ++
        (e.principal.map fun s => ("principal", Json.str s)).toList ++
        (e.detail.map fun s => ("detail", Json.str s)).toList ++
        [("previous_hash", (e.previousHash.map Json.str).getD .null), ("metadata", e.metadata)])) := by
  obtain ⟨id, t, scope, action, rule, principal, detail, previous, metadata⟩ := e
  cases rule <;> cases principal <;> cases detail <;> cases previous <;> rfl

section Reading

open JsonText

variable {depth : Nat} {members : Members} {fs : List (String × Json)}

theorem fieldsFit_optionalText (name : String) (o : Option String) (h : FieldsFit depth members fs) :
    FieldsFit depth ((name, .defaulted, .optional .text) :: members)
      ((o.map fun s => (name, Json.str s)).toList ++ fs) := by
  cases o with
  | none => exact .defaulted h
  | some s => exact .present (readsBack_optional_text depth s) h

theorem readsBack_link (o : Option String) : ReadsBack (.optional .text) depth ((o.map Json.str).getD .null) := by
  cases o with
  | none => exact readsBack_optional_null _ depth
  | some h => exact readsBack_optional_text depth h

/-- The document of a storable event is read back against the schema of events. -/
theorem readsBack_toJson {e : AuditEvent} (he : e.Storable) : ReadsBack AuditEvent.schema 0 e.toJson := by
  have hid : Uuid.parse? e.eventId.render = some e.eventId := Uuid.parse?_render he.canonical_id
  have htime : Instant.readRelaxedOrFault e.timestamp.render = .ok e.timestamp :=
    Instant.readRelaxedOrFault_render he.on_clock
  have haction : e.action.name ∈ ["policy_compiled", "emergency_override_activated", "deny_policy_violation"] := by
    cases e.action <;> decide
  have hmetadata : ReadsBack .anything 1 e.metadata :=
    readsBack_anything he.keyed_metadata (by simp [maxDepth])
  rw [toJson_eq]
  refine readsBack_record (by decide) "AuditEvent" (by decide)
    (.present (readsBack_parsed (by simp [hid]) _) (.present (readsBack_parsed (by simp [htime]) _)
      (.present (readsBack_text _ _) (.present (readsBack_choice _ _ _ haction) ?_))))
  simp only [List.append_assoc]
  exact fieldsFit_optionalText _ _ (fieldsFit_optionalText _ _ (fieldsFit_optionalText _ _
    (.present (readsBack_link _) (.present hmetadata .nil))))

end Reading

theorem newline_not_mem_line (e : AuditEvent) : '\n' ∉ e.line.toList :=
  Json.newline_not_mem_compact e.toJson

theorem toList_line (e : AuditEvent) : ∃ cs, e.line.toList = '\x7b' :: (cs ++ ['\x7d']) := by
  obtain ⟨fs, hfs⟩ : ∃ fs, e.toJson = .obj fs := ⟨_, toJson_eq e⟩
  exact ⟨(Json.compactFields fs).toList, by simp [line, hfs, Json.compact, String.toList_append]⟩

theorem foldl_field_optional {name key : String} (o : Option String) (acc : Option Json) :
    (o.map fun s => (name, Json.str s)).toList.foldl (fun acc kv => if kv.1 == key then some kv.2 else acc) acc =
      if name = key then (o.map Json.str).or acc else acc := by
  cases o <;> by_cases h : name = key <;> simp [h]

theorem optional_of_get? {F : Decode.Fields} {name : String} {o : Option String}
    (h : F.get? name = o.map Json.str) : F.optional name Decode.string = .ok o := by
  cases o <;> simp [Decode.Fields.optional, Decode.Fields.withDefault, h, Decode.option, Decode.string, Except.map]

theorem optional_of_get?_null {F : Decode.Fields} {name : String} {o : Option String}
    (h : F.get? name = some ((o.map Json.str).getD .null)) : F.optional name Decode.string = .ok o := by
  cases o <;> simp [Decode.Fields.optional, Decode.Fields.withDefault, h, Decode.option, Decode.string, Except.map]

/-- The document of a storable event decodes as the event. -/
theorem decode_toJson {e : AuditEvent} (he : e.Storable) : decode e.toJson = .ok e := by
  have hid : Uuid.parse? e.eventId.render = some e.eventId := Uuid.parse?_render he.canonical_id
  have htime : Instant.readRelaxed e.timestamp.render = some e.timestamp := Instant.readRelaxed_render he.on_clock
  have hmetadata : e.metadata.normalize = e.metadata := Json.normalize_of_keyed he.keyed_metadata
  rw [toJson_eq]
  simp only [decode, Decode.fields, ok_bind]
  rw [@optional_of_get? _ "rule_name" e.ruleName ?_, @optional_of_get? _ "principal" e.principal ?_,
    @optional_of_get? _ "detail" e.detail ?_, @optional_of_get?_null _ "previous_hash" e.previousHash ?_]
  all_goals simp only [Decode.Fields.required, Decode.Fields.withDefault, Json.field?, List.foldl_cons,
    List.foldl_nil, List.foldl_append, foldl_field_optional, String.reduceEq, String.reduceBEq, ↓reduceIte,
    Bool.false_eq_true, Option.or_none, beq_self_eq_true, ok_bind]
  simp [Decode.parsed, Decode.enum, Decode.string, hid, htime, hmetadata]

end AuditEvent

namespace AuditLog

theorem dropReturn_line (e : AuditEvent) : dropReturn e.line = e.line := by
  obtain ⟨cs, hcs⟩ := e.toList_line
  have hlast : e.line.toList.getLast? = some '\x7d' := by
    rw [hcs, ← List.cons_append, List.getLast?_concat]
  unfold dropReturn
  rw [hlast]
  rfl

theorem isBlankText_line (e : AuditEvent) : Text.isBlankText e.line = false := by
  obtain ⟨cs, hcs⟩ := e.toList_line
  simp [Text.isBlankText, hcs, Text.isBlank]

/-- The stored line of a storable event is read back as the event. -/
theorem readEvent_line {e : AuditEvent} (he : e.Storable) : readEvent e.line = .ok e := by
  simp only [readEvent, Schema.readTextOrMessage, AuditEvent.line,
    JsonText.readText_compact (AuditEvent.readsBack_toJson he), AuditEvent.decode_toJson he]

end AuditLog

end DenyPolicy
