import Mathlib.Computability.Language
import DenyPolicy.Text.Grammar
/-!
# The languages of group emails and identifiers

Principals are checked against two anchored patterns: a group email is
`^[A-Za-z0-9._%+-]+@[A-Za-z0-9-]+(\.[A-Za-z0-9-]+)+$` and an identifier is
`^[a-z0-9][a-z0-9_-]*$`, where `^` and `$` stand at the very start and the very
end of the text (so `$` admits no line break before it).  This module writes each
pattern as the language it denotes, `emailPattern` and `identifierPattern`, and
proves that the character-level checks `Text.isEmail` and `Text.isIdentifier`
accept exactly these languages, and that the languages are the ones the patterns
say in words: one `@`, a non-empty local part before it, and after it a domain
whose fields between dots are at least two, each non-empty; an identifier is
non-empty and led by a lowercase letter or a digit.
-/

namespace DenyPolicy

open scoped Computability

/-! ## Character classes -/

def AsciiAlnum (c : Char) : Prop := ('A' ≤ c ∧ c ≤ 'Z') ∨ ('a' ≤ c ∧ c ≤ 'z') ∨ ('0' ≤ c ∧ c ≤ '9')

def LocalPartChar (c : Char) : Prop := AsciiAlnum c ∨ c = '.' ∨ c = '_' ∨ c = '%' ∨ c = '+' ∨ c = '-'

def LabelChar (c : Char) : Prop := AsciiAlnum c ∨ c = '-'

def IdentifierLead (c : Char) : Prop := ('a' ≤ c ∧ c ≤ 'z') ∨ ('0' ≤ c ∧ c ≤ '9')

def IdentifierChar (c : Char) : Prop := IdentifierLead c ∨ c = '_' ∨ c = '-'

theorem isAsciiAlnum_iff (c : Char) : Text.isAsciiAlnum c = true ↔ AsciiAlnum c := by
  simp only [Text.isAsciiAlnum, AsciiAlnum, Bool.or_eq_true, Bool.and_eq_true, decide_eq_true_eq]
  rw [or_left_comm, or_assoc]

theorem isLocalChar_iff (c : Char) : Text.isLocalChar c = true ↔ LocalPartChar c := by
  simp [Text.isLocalChar, LocalPartChar, isAsciiAlnum_iff, or_assoc]

theorem isLabelChar_iff (c : Char) : Text.isLabelChar c = true ↔ LabelChar c := by
  simp [Text.isLabelChar, LabelChar, isAsciiAlnum_iff]

theorem isLowerAlnum_iff (c : Char) : Text.isLowerAlnum c = true ↔ IdentifierLead c := by
  simp [Text.isLowerAlnum, IdentifierLead]

/-! ## Words over a class, and splitting at a separator -/

def WordOver (p : Char → Prop) (w : List Char) : Prop := w ≠ [] ∧ ∀ c ∈ w, p c

/-- A list splits at `a` into exactly two fields when `a` occurs in it once. -/
theorem splitOn_eq_pair_iff {a : Char} {l x y : List Char} :
    l.splitOn a = [x, y] ↔ l = x ++ a :: y ∧ a ∉ x ∧ a ∉ y := by
  constructor
  · intro h
    by_cases ha : a ∈ l
    · obtain ⟨u, v, rfl, hu⟩ := List.eq_append_cons_of_mem ha
      rw [List.splitOn_append_cons_self_of_not_mem hu, List.cons.injEq] at h
      obtain ⟨rfl, hv⟩ := h
      have hy : a ∉ v := by
        intro hav
        obtain ⟨p, q, rfl, hp⟩ := List.eq_append_cons_of_mem hav
        rw [List.splitOn_append_cons_self_of_not_mem hp, List.cons.injEq] at hv
        exact List.splitOn_ne_nil a q hv.2
      rw [List.splitOn_eq_singleton hy, List.cons.injEq] at hv
      exact ⟨by rw [hv.1], hu, hv.1 ▸ hy⟩
    · rw [List.splitOn_eq_singleton ha] at h
      simp at h
  · rintro ⟨rfl, hx, hy⟩
    rw [List.splitOn_append_cons_self_of_not_mem hx, List.splitOn_eq_singleton hy]

theorem count_eq_one_of_split {a : Char} {l x y : List Char} (h : l = x ++ a :: y) :
    l.count a = 1 ↔ a ∉ x ∧ a ∉ y := by
  subst h
  simp only [List.count_append, List.count_cons_self, ← List.count_eq_zero]
  omega

theorem intercalate_cons (a : Char) (f : List Char) (fs : List (List Char)) :
    [a].intercalate (f :: fs) = f ++ (fs.map (a :: ·)).flatten := by
  induction fs generalizing f with
  | nil => simp
  | cons g gs ih => rw [List.intercalate_cons_of_ne_nil (by simp), ih]; simp

/-- Every character of a list is its separator or a character of one of its fields. -/
theorem mem_of_mem_splitOn {a c : Char} {l : List Char} (hc : c ∈ l) :
    c = a ∨ ∃ f ∈ l.splitOn a, c ∈ f := by
  obtain ⟨f, fs, hfs⟩ := List.exists_cons_of_ne_nil (List.splitOn_ne_nil a l)
  replace hc : c ∈ [a].intercalate (l.splitOn a) := by rwa [List.intercalate_splitOn]
  rw [hfs, intercalate_cons] at hc
  simp only [List.mem_append, List.mem_flatten, List.mem_map] at hc
  rcases hc with hc | ⟨_, ⟨g, hg, rfl⟩, hc⟩
  · exact .inr ⟨f, by simp [hfs], hc⟩
  · rcases List.mem_cons.mp hc with rfl | hc
    · exact .inl rfl
    · exact .inr ⟨g, by simp [hfs, hg], hc⟩

/-! ## The patterns as languages -/

def charClass (p : Char → Prop) : Language Char := {w | ∃ c, p c ∧ w = [c]}

def oneOrMore (l : Language Char) : Language Char := l * l∗

/-- The language of the group email pattern
`^[A-Za-z0-9._%+-]+@[A-Za-z0-9-]+(\.[A-Za-z0-9-]+)+$`. -/
def emailPattern : Language Char :=
  oneOrMore (charClass LocalPartChar) * charClass (· = '@') * oneOrMore (charClass LabelChar) *
    oneOrMore (charClass (· = '.') * oneOrMore (charClass LabelChar))

/-- The language of the identifier pattern `^[a-z0-9][a-z0-9_-]*$`. -/
def identifierPattern : Language Char := charClass IdentifierLead * (charClass IdentifierChar)∗

theorem mem_charClass_mul {p : Char → Prop} {l : Language Char} {w : List Char} :
    w ∈ charClass p * l ↔ ∃ c rest, w = c :: rest ∧ p c ∧ rest ∈ l := by
  rw [Language.mem_mul]
  constructor
  · rintro ⟨_, ⟨c, hc, rfl⟩, rest, hrest, rfl⟩
    exact ⟨c, rest, rfl, hc, hrest⟩
  · rintro ⟨c, rest, rfl, hc, hrest⟩
    exact ⟨[c], ⟨c, hc, rfl⟩, rest, hrest, rfl⟩

theorem mem_kstar_charClass {p : Char → Prop} {w : List Char} :
    w ∈ (charClass p)∗ ↔ ∀ c ∈ w, p c := by
  rw [Language.mem_kstar]
  constructor
  · rintro ⟨L, rfl, hL⟩ c hc
    obtain ⟨y, hy, hcy⟩ := List.mem_flatten.mp hc
    obtain ⟨d, hd, rfl⟩ := hL y hy
    rwa [List.mem_singleton.mp hcy]
  · intro h
    refine ⟨w.map ([·]), (List.flatMap_singleton' w).symm, ?_⟩
    simp only [List.mem_map]
    rintro _ ⟨c, hc, rfl⟩
    exact ⟨c, h c hc, rfl⟩

theorem mem_oneOrMore_charClass {p : Char → Prop} {w : List Char} :
    w ∈ oneOrMore (charClass p) ↔ WordOver p w := by
  rw [oneOrMore, mem_charClass_mul, WordOver]
  constructor
  · rintro ⟨c, rest, rfl, hc, hrest⟩
    refine ⟨List.cons_ne_nil c rest, ?_⟩
    simpa [hc] using mem_kstar_charClass.mp hrest
  · rintro ⟨hne, hall⟩
    obtain ⟨c, rest, rfl⟩ := List.exists_cons_of_ne_nil hne
    exact ⟨c, rest, rfl, hall c (by simp), mem_kstar_charClass.mpr fun d hd => hall d (by simp [hd])⟩

/-- The pattern `(\.l)*` reads each word of `l` behind a dot. -/
theorem mem_kstar_dotted {l : Language Char} {w : List Char} :
    w ∈ (charClass (· = '.') * l)∗ ↔
      ∃ fs : List (List Char), (∀ f ∈ fs, f ∈ l) ∧ w = (fs.map ('.' :: ·)).flatten := by
  rw [Language.mem_kstar]
  constructor
  · rintro ⟨L, rfl, hL⟩
    induction L with
    | nil => exact ⟨[], by simp, rfl⟩
    | cons y ys ih =>
      obtain ⟨_, f, rfl, rfl, hf⟩ := mem_charClass_mul.mp (hL y (by simp))
      obtain ⟨fs, hfs, heq⟩ := ih fun z hz => hL z (by simp [hz])
      refine ⟨f :: fs, ?_, by simp [heq]⟩
      simpa [hf] using hfs
  · rintro ⟨fs, hfs, rfl⟩
    refine ⟨fs.map ('.' :: ·), rfl, ?_⟩
    simp only [List.mem_map]
    rintro _ ⟨f, hf, rfl⟩
    exact mem_charClass_mul.mpr ⟨'.', f, rfl, rfl, hfs f hf⟩

/-- The pattern `l(\.l)+` reads at least two words of `l` joined by dots. -/
theorem mem_dotted {l : Language Char} {w : List Char} :
    w ∈ l * oneOrMore (charClass (· = '.') * l) ↔
      ∃ fs : List (List Char), 2 ≤ fs.length ∧ (∀ f ∈ fs, f ∈ l) ∧ w = ['.'].intercalate fs := by
  rw [oneOrMore, Language.mem_mul]
  constructor
  · rintro ⟨f₀, hf₀, _, hmore, rfl⟩
    obtain ⟨_, hdot, rest, hrest, rfl⟩ := Language.mem_mul.mp hmore
    obtain ⟨_, f₁, rfl, rfl, hf₁⟩ := mem_charClass_mul.mp hdot
    obtain ⟨fs, hfs, rfl⟩ := mem_kstar_dotted.mp hrest
    refine ⟨f₀ :: f₁ :: fs, by simp, ?_, by simp [intercalate_cons]⟩
    simpa [hf₀, hf₁] using hfs
  · rintro ⟨_ | ⟨f₀, _ | ⟨f₁, fs⟩⟩, hlen, hfs, rfl⟩
    · simp at hlen
    · simp at hlen
    · refine ⟨f₀, hfs f₀ (by simp), '.' :: f₁ ++ (fs.map ('.' :: ·)).flatten, ?_, by simp [intercalate_cons]⟩
      refine Language.mem_mul.mpr ⟨'.' :: f₁, mem_charClass_mul.mpr ⟨'.', f₁, rfl, rfl, hfs f₁ (by simp)⟩, _, ?_, rfl⟩
      exact mem_kstar_dotted.mpr ⟨fs, fun f hf => hfs f (by simp [hf]), rfl⟩

/-! ## Group emails -/

def DomainShape (dom : List Char) : Prop :=
  2 ≤ (dom.splitOn '.').length ∧ ∀ f ∈ dom.splitOn '.', WordOver LabelChar f

/-- A group email in words: exactly one `@`, before it a non-empty local part over
`[A-Za-z0-9._%+-]`, and after it a domain. -/
def EmailShape (w : List Char) : Prop :=
  w.count '@' = 1 ∧ ∃ loc dom, w = loc ++ '@' :: dom ∧ WordOver LocalPartChar loc ∧ DomainShape dom

/-- The domain part of the pattern, `[A-Za-z0-9-]+(\.[A-Za-z0-9-]+)+`, reads exactly
the domains. -/
theorem mem_domain_iff {w : List Char} :
    w ∈ oneOrMore (charClass LabelChar) * oneOrMore (charClass (· = '.') * oneOrMore (charClass LabelChar)) ↔
      DomainShape w := by
  have nodot : ∀ f, WordOver LabelChar f → '.' ∉ f := fun f hf hmem => by
    simpa [LabelChar, AsciiAlnum] using hf.2 '.' hmem
  rw [mem_dotted, DomainShape]
  simp only [mem_oneOrMore_charClass]
  constructor
  · rintro ⟨fs, hlen, hfs, rfl⟩
    rw [List.splitOn_intercalate '.' (fun f hf => nodot f (hfs f hf)) (List.ne_nil_of_length_pos (by omega))]
    exact ⟨hlen, hfs⟩
  · rintro ⟨hlen, hfs⟩
    exact ⟨w.splitOn '.', hlen, hfs, (List.intercalate_splitOn '.').symm⟩

theorem not_mem_of_localPart {loc : List Char} (h : WordOver LocalPartChar loc) : '@' ∉ loc :=
  fun hat => by simpa [LocalPartChar, AsciiAlnum] using h.2 '@' hat

theorem not_mem_of_domainShape {dom : List Char} (h : DomainShape dom) : '@' ∉ dom := by
  intro hat
  rcases mem_of_mem_splitOn (a := '.') hat with hdot | ⟨f, hf, hatf⟩
  · simp at hdot
  · simpa [LabelChar, AsciiAlnum] using (h.2 f hf).2 '@' hatf

theorem emailShape_iff {w : List Char} :
    EmailShape w ↔ ∃ loc dom, w = loc ++ '@' :: dom ∧ WordOver LocalPartChar loc ∧ DomainShape dom := by
  refine ⟨fun h => h.2, ?_⟩
  rintro ⟨loc, dom, hw, hloc, hdom⟩
  exact ⟨(count_eq_one_of_split hw).mpr ⟨not_mem_of_localPart hloc, not_mem_of_domainShape hdom⟩,
    loc, dom, hw, hloc, hdom⟩

theorem mem_emailPattern_iff {w : List Char} : w ∈ emailPattern ↔ EmailShape w := by
  rw [emailPattern, mul_assoc, mul_assoc, Language.mem_mul, emailShape_iff]
  simp only [mem_charClass_mul, mem_domain_iff, mem_oneOrMore_charClass]
  constructor
  · rintro ⟨loc, hloc, _, ⟨_, dom, rfl, rfl, hdom⟩, rfl⟩
    exact ⟨loc, dom, rfl, hloc, hdom⟩
  · rintro ⟨loc, dom, rfl, hloc, hdom⟩
    exact ⟨loc, hloc, '@' :: dom, ⟨'@', dom, rfl, rfl, hdom⟩, rfl⟩

theorem isLabel_iff (f : List Char) : Text.isLabel f = true ↔ WordOver LabelChar f := by
  simp [Text.isLabel, WordOver, isLabelChar_iff]

/-- Once a text splits into two fields at `@`, it is an email exactly when the
fields are a local part and a domain. -/
theorem emailParts_iff {w loc dom : List Char} (hsplit : w.splitOn '@' = [loc, dom]) :
    (∃ loc' dom', w = loc' ++ '@' :: dom' ∧ WordOver LocalPartChar loc' ∧ DomainShape dom') ↔
      WordOver LocalPartChar loc ∧ DomainShape dom := by
  constructor
  · rintro ⟨loc', dom', hw, hloc, hdom⟩
    rw [splitOn_eq_pair_iff.mpr ⟨hw, not_mem_of_localPart hloc, not_mem_of_domainShape hdom⟩] at hsplit
    simp only [List.cons.injEq, and_true] at hsplit
    obtain ⟨rfl, rfl⟩ := hsplit
    exact ⟨hloc, hdom⟩
  · rintro ⟨hloc, hdom⟩
    exact ⟨loc, dom, (splitOn_eq_pair_iff.mp hsplit).1, hloc, hdom⟩

theorem not_emailParts {w : List Char} (hsplit : ∀ loc dom, w.splitOn '@' ≠ [loc, dom]) :
    ¬ ∃ loc dom, w = loc ++ '@' :: dom ∧ WordOver LocalPartChar loc ∧ DomainShape dom := by
  rintro ⟨loc, dom, hw, hloc, hdom⟩
  exact hsplit loc dom (splitOn_eq_pair_iff.mpr ⟨hw, not_mem_of_localPart hloc, not_mem_of_domainShape hdom⟩)

theorem isEmail_iff (s : String) : Text.isEmail s = true ↔ EmailShape s.toList := by
  rw [Text.isEmail, emailShape_iff]
  split
  · next loc dom hsplit =>
    rw [emailParts_iff hsplit, WordOver, DomainShape]
    simp only [Bool.and_eq_true, Bool.not_eq_true', List.isEmpty_eq_false_iff, List.all_eq_true,
      isLocalChar_iff]
    split
    · next f g rest hfs =>
      simp [hfs, isLabel_iff]
    · next hfs =>
      simp only [Bool.false_eq_true, and_false, false_iff, not_and]
      intro _ hlen _
      rcases hl : dom.splitOn '.' with _ | ⟨f, _ | ⟨g, rest⟩⟩
      · simp [hl] at hlen
      · simp [hl] at hlen
      · exact hfs f g rest hl
  · next hsplit =>
    simpa using not_emailParts hsplit

/-! ## Identifiers -/

/-- An identifier in words: non-empty, led by `[a-z0-9]`, and over `[a-z0-9_-]`. -/
def IdentifierShape (w : List Char) : Prop :=
  ∃ c rest, w = c :: rest ∧ IdentifierLead c ∧ ∀ d ∈ w, IdentifierChar d

theorem identifierChar_of_lead {c : Char} (h : IdentifierLead c) : IdentifierChar c := .inl h

theorem mem_identifierPattern_iff {w : List Char} : w ∈ identifierPattern ↔ IdentifierShape w := by
  rw [identifierPattern, mem_charClass_mul, IdentifierShape]
  simp only [mem_kstar_charClass]
  constructor
  · rintro ⟨c, rest, rfl, hc, hrest⟩
    exact ⟨c, rest, rfl, hc, by simpa [identifierChar_of_lead hc] using hrest⟩
  · rintro ⟨c, rest, rfl, hc, hall⟩
    exact ⟨c, rest, rfl, hc, fun d hd => hall d (by simp [hd])⟩

theorem isIdentifier_iff (s : String) : Text.isIdentifier s = true ↔ IdentifierShape s.toList := by
  rw [Text.isIdentifier, IdentifierShape]
  split
  · next c rest h =>
    simp only [h, Bool.and_eq_true, List.all_eq_true, isLowerAlnum_iff]
    constructor
    · rintro ⟨hc, hrest⟩
      refine ⟨c, rest, rfl, hc, fun d hd => ?_⟩
      rcases List.mem_cons.mp hd with rfl | hd
      · exact identifierChar_of_lead hc
      · simpa [IdentifierChar, isLowerAlnum_iff, or_assoc] using hrest d hd
    · rintro ⟨_, _, heq, hc, hall⟩
      obtain ⟨rfl, rfl⟩ := List.cons.inj heq
      refine ⟨hc, fun d hd => ?_⟩
      simpa [IdentifierChar, isLowerAlnum_iff, or_assoc] using hall d (List.mem_cons_of_mem _ hd)
  · next h =>
    simp [h]

/-! ## The validators -/

/-- The two checks accept exactly the languages of their patterns, and these are the
languages the patterns say in words. -/
theorem validators_accept_their_languages (s : String) :
    (Text.isEmail s = true ↔ s.toList ∈ emailPattern) ∧
      (s.toList ∈ emailPattern ↔ EmailShape s.toList) ∧
      (Text.isIdentifier s = true ↔ s.toList ∈ identifierPattern) ∧
      (s.toList ∈ identifierPattern ↔ IdentifierShape s.toList) := by
  exact ⟨(isEmail_iff s).trans mem_emailPattern_iff.symm, mem_emailPattern_iff,
    (isIdentifier_iff s).trans mem_identifierPattern_iff.symm, mem_identifierPattern_iff⟩

-- a trailing line break, a trailing or doubled dot in the domain, an empty label and a second `@`
example : Text.isEmail "first.last+ops@sub.example.org" = true := by decide
example : [ "sec@x.com\n", "sec@x.com.", "sec@x..com", "sec@.x.com", "sec@x@x.com", "sec@x" ].all
    (fun s => !Text.isEmail s) = true := by decide
example : Text.isIdentifier "repository_owner" = true ∧ Text.isIdentifier "-pool" = false := by decide

end DenyPolicy
