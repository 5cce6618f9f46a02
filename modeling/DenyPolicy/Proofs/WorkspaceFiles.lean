import DenyPolicy.Command.Workspace
import DenyPolicy.Proofs.Stages
/-!
# What a write to a project directory leaves alone

A command changes a project directory by writing files and making directories.
This module says what such a change keeps: the root, every directory, and the
text of every file it does not write.  A path that led to a place before leads
to the same place after (`Keeps.resolve`), since only directories are passed on
the way.

The names a path passes are texts between its slashes: a plain name goes down
into a directory, and `.` stays where it is (`StepName`).  A relative path is
followed from the root, as is a path under the root's own path
(`lead_of_relative`, `lead_of_rooted`).
-/

namespace DenyPolicy

namespace Workspace

/-- `w'` keeps the root of `w` and every directory of it. -/
structure Keeps (w w' : Workspace) : Prop where
  root_eq : w'.root = w.root
  directory : ∀ p, w.entry? p = some .directory → w'.entry? p = some .directory

theorem Keeps.refl (w : Workspace) : w.Keeps w := ⟨rfl, fun _ h => h⟩

theorem Keeps.trans {w₁ w₂ w₃ : Workspace} (h₁ : w₁.Keeps w₂) (h₂ : w₂.Keeps w₃) : w₁.Keeps w₃ :=
  ⟨h₂.root_eq.trans h₁.root_eq, fun p h => h₂.directory p (h₁.directory p h)⟩

/-- Passing names goes only through directories, which a kept directory still has. -/
theorem Keeps.pass {w w' : Workspace} (hk : w.Keeps w') {names : List String} :
    ∀ {here r}, w.pass here names = .ok r → w'.pass here names = .ok r := by
  induction names with
  | nil => intro here r h; simpa [Workspace.pass] using h
  | cons name rest ih =>
    intro here r h
    unfold Workspace.pass at h ⊢
    by_cases hdot : name = "."
    · simp only [hdot, if_true] at h ⊢
      exact ih h
    by_cases hup : name = ".."
    · simp only [hup, if_true, show ¬ (".." = ".") by decide, if_false] at h ⊢
      exact ih h
    simp only [hdot, hup, if_false] at h ⊢
    cases here with
    | none => simp at h
    | some p =>
      simp only at h ⊢
      split at h
      · rename_i hentry
        rw [hk.directory _ hentry]
        exact ih h
      · simp at h
      · simp at h

theorem Keeps.follow {w w' : Workspace} (hk : w.Keeps w') {start : Option (List String)} {rest path : String}
    {t : Target} (h : w.follow start rest path = .ok t) : w'.follow start rest path = .ok t := by
  unfold Workspace.follow at h ⊢
  split at h
  · exact h
  · rename_i last before _
    cases hpass : w.pass start before.reverse with
    | error f => simp [hpass, error_bind] at h
    | ok here =>
      rw [hk.pass hpass]
      simpa [hpass] using h

/-- A path that led to a target leads to it again in a directory that keeps the
first one's directories. -/
theorem Keeps.resolve {w w' : Workspace} (hk : w.Keeps w') {path : String} {t : Target}
    (h : w.resolve path = .ok t) : w'.resolve path = .ok t := by
  unfold Workspace.resolve at h ⊢
  rw [hk.root_eq]
  exact hk.follow h

/-! ## Writing a file -/

theorem lookup_map_setText_of_ne {place q : List String} {text : String} (hq : q ≠ place)
    (files : List (List String × String)) :
    (files.map fun (p, t) => if p == place then (p, text) else (p, t)).lookup q = files.lookup q := by
  induction files with
  | nil => rfl
  | cons f rest ih =>
    obtain ⟨p, t⟩ := f
    simp only [List.map_cons]
    by_cases hqp : q = p
    · have hp : (p == place) = false := by simpa [← hqp] using hq
      simp [hp, hqp]
    · have hb : (q == p) = false := by simpa using hqp
      by_cases hp : p = place
      · subst hp
        simp only [beq_self_eq_true, if_true, List.lookup_cons, hb]
        exact ih
      · have hp' : (p == place) = false := by simpa using hp
        simp only [hp', Bool.false_eq_true, if_false, List.lookup_cons, hb]
        exact ih

theorem lookup_map_setText_self {place : List String} {text : String} (files : List (List String × String))
    (h : files.any (·.1 == place) = true) :
    (files.map fun (p, t) => if p == place then (p, text) else (p, t)).lookup place = some text := by
  induction files with
  | nil => simp at h
  | cons f rest ih =>
    obtain ⟨p, t⟩ := f
    simp only [List.map_cons]
    by_cases hp : p = place
    · simp [hp]
    · have hp' : (p == place) = false := by simpa using hp
      have hb : (place == p) = false := by simpa using Ne.symm hp
      simp only [hp', Bool.false_eq_true, if_false, List.lookup_cons, hb]
      exact ih (by simpa [hp] using h)

theorem lookup_append_absent {place q : List String} {text : String} {files : List (List String × String)}
    (h : files.any (·.1 == place) = false) :
    (files ++ [(place, text)]).lookup q = if q = place then some text else files.lookup q := by
  induction files with
  | nil =>
    by_cases hq : q = place
    · simp [hq]
    · have hb : (q == place) = false := by simpa using hq
      simp [List.lookup_cons, List.lookup_nil, hq, hb]
  | cons f rest ih =>
    obtain ⟨p, t⟩ := f
    have hp : p ≠ place := by simp at h; exact h.1
    have ih := ih (by simp at h ⊢; exact h.2)
    by_cases hq : q = p
    · subst hq
      simp [hp]
    · have hb : (q == p) = false := by simpa using hq
      simp only [List.cons_append, List.lookup_cons, hb, ih]

@[simp] theorem lookup_setFile (w : Workspace) (place : List String) (text : String) (q : List String) :
    (w.setFile place text).files.lookup q = if q = place then some text else w.files.lookup q := by
  unfold setFile
  split
  · rename_i hany
    by_cases hq : q = place
    · rw [if_pos hq, hq]
      exact lookup_map_setText_self w.files hany
    · rw [if_neg hq]
      exact lookup_map_setText_of_ne hq w.files
  · exact lookup_append_absent (Bool.eq_false_iff.mpr ‹_›)

@[simp] theorem root_setFile (w : Workspace) (place : List String) (text : String) :
    (w.setFile place text).root = w.root := by
  unfold setFile; split <;> rfl

@[simp] theorem directories_setFile (w : Workspace) (place : List String) (text : String) :
    (w.setFile place text).directories = w.directories := by
  unfold setFile; split <;> rfl

@[simp] theorem clock_setFile (w : Workspace) (place : List String) (text : String) :
    (w.setFile place text).clock = w.clock := by
  unfold setFile; split <;> rfl

@[simp] theorem stderr_setFile (w : Workspace) (place : List String) (text : String) :
    (w.setFile place text).stderr = w.stderr := by
  unfold setFile; split <;> rfl

theorem any_setFile {P : List String → Bool} (w : Workspace) (place : List String) (text : String)
    (h : w.files.any (fun f => P f.1) = true) : (w.setFile place text).files.any (fun f => P f.1) = true := by
  unfold setFile
  split
  · obtain ⟨⟨p, t⟩, hf, hP⟩ := List.any_eq_true.mp h
    refine List.any_eq_true.mpr ⟨_, List.mem_map_of_mem hf, ?_⟩
    dsimp only
    split <;> exact hP
  · simp [h]

theorem entry?_file_iff {w : Workspace} {place : List String} {text : String} :
    w.entry? place = some (.file text) ↔ w.files.lookup place = some text := by
  unfold entry?
  split
  · simp_all
  · rename_i hnone
    simp only [hnone, reduceCtorEq, iff_false]
    split <;> simp

theorem lookup_of_directory {w : Workspace} {place : List String} (h : w.entry? place = some .directory) :
    w.files.lookup place = none := by
  unfold entry? at h
  split at h
  · simp at h
  · assumption

theorem entry?_of_lookup_none {w : Workspace} {q : List String} (hq : w.files.lookup q = none) :
    w.entry? q = none ∨ w.entry? q = some .directory := by
  cases he : w.entry? q with
  | none => exact .inl rfl
  | some e =>
    cases e with
    | file t =>
      rw [entry?_file_iff, hq] at he
      cases he
    | directory => exact .inr rfl

/-- Writing a file where no directory is keeps every directory. -/
theorem keeps_setFile {w : Workspace} {place : List String} (h : w.entry? place ≠ some .directory)
    (text : String) : w.Keeps (w.setFile place text) := by
  refine ⟨root_setFile w place text, fun q hq => ?_⟩
  have hne : q ≠ place := fun he => h (he ▸ hq)
  have hlookup := lookup_of_directory hq
  have hcond : (q.isEmpty || w.directories.contains q || w.files.any (fun f => above q f.1) ||
      w.directories.any (above q)) = true := by
    cases hc : (q.isEmpty || w.directories.contains q || w.files.any (fun f => above q f.1) ||
        w.directories.any (above q)) with
    | true => rfl
    | false => simp only [ entry?, hlookup, hc, Bool.false_eq_true, if_false, reduceCtorEq] at hq
  have hcond' : (q.isEmpty || w.directories.contains q || (w.setFile place text).files.any (fun f => above q f.1) ||
      w.directories.any (above q)) = true := by
    simp only [Bool.or_eq_true] at hcond ⊢
    rcases hcond with ((h1 | h2) | h3) | h4
    · exact Or.inl (Or.inl (Or.inl h1))
    · exact Or.inl (Or.inl (Or.inr h2))
    · exact Or.inl (Or.inr (any_setFile w place text h3))
    · exact Or.inr h4
  unfold entry?
  rw [lookup_setFile, if_neg hne, hlookup, directories_setFile]
  simp only [hcond', if_true]

/-- A written file adds its place to those that directories stand above. -/
theorem any_setFile_eq {P : List String → Bool} (w : Workspace) (place : List String) (text : String) :
    (w.setFile place text).files.any (fun f => P f.1) = (w.files.any (fun f => P f.1) || P place) := by
  unfold setFile
  split
  · rename_i hany
    obtain ⟨⟨p, t⟩, hf, hp⟩ := List.any_eq_true.mp hany
    have hp : p = place := by simpa using hp
    subst hp
    have hkeys : (w.files.map fun (q, u) => if q == p then (q, text) else (q, u)).map Prod.fst = w.files.map Prod.fst := by
      rw [List.map_map]
      congr 1
      funext x
      simp only [Function.comp_apply]
      split <;> rfl
    have hsame : ∀ l : List (List String × String), l.any (fun f => P f.1) = (l.map Prod.fst).any P := by
      intro l; rw [List.any_map]; rfl
    rw [hsame, hkeys, ← hsame]
    cases hP : P p
    · simp
    · simp only [Bool.or_true]
      exact List.any_eq_true.mpr ⟨(p, t), hf, hP⟩
  · simp

theorem entry?_setFile_ne_directory {w : Workspace} {q place : List String} (h : w.entry? q ≠ some .directory)
    (hq : above q place = false) (text : String) : entry? (w.setFile place text) q ≠ some .directory := by
  unfold entry? at h ⊢
  rw [lookup_setFile]
  by_cases heq : q = place
  · rw [if_pos heq]
    simp
  · rw [if_neg heq, directories_setFile, any_setFile_eq, hq, Bool.or_false]
    exact h

theorem keeps_of_files {w w' : Workspace} (hroot : w'.root = w.root) (hfiles : w'.files = w.files)
    (hdirs : w'.directories = w.directories) : w.Keeps w' := by
  refine ⟨hroot, fun p hp => ?_⟩
  unfold entry? at hp ⊢
  rw [hfiles, hdirs]
  exact hp

theorem store_of_file {w : Workspace} {path : String} {place : List String}
    (hr : w.resolve path = .ok (.named place false)) {old : String} (hf : w.entry? place = some (.file old))
    (text : String) (append : Bool) :
    w.store path text append = .ok (w.setFile place (if append then old ++ text else text)) := by
  simp [store, hr, hf]

theorem store_of_absent {w : Workspace} {path : String} {place : List String}
    (hr : w.resolve path = .ok (.named place false)) (hn : w.entry? place = none) (text : String) (append : Bool) :
    w.store path text append = .ok (w.setFile place text) := by
  simp [store, hr, hn]

theorem store_of_not_directory {w : Workspace} {path : String} {place : List String}
    (hr : w.resolve path = .ok (.named place false)) (hd : w.entry? place ≠ some .directory) (text : String) :
    w.store path text false = .ok (w.setFile place text) := by
  cases he : w.entry? place with
  | none => exact store_of_absent hr he text false
  | some e =>
    cases e with
    | file old => simpa using store_of_file hr he text false
    | directory => exact absurd he hd

theorem read_of_file {w : Workspace} {path : String} {place : List String}
    (hr : w.resolve path = .ok (.named place false)) {text : String} (hf : w.entry? place = some (.file text)) :
    w.read path = .ok text := by
  simp [read, hr, hf]

theorem isPresent_of_named {w : Workspace} {path : String} {place : List String}
    (hr : w.resolve path = .ok (.named place false)) : w.isPresent path = ( w.entry? place).isSome := by
  unfold isPresent
  rw [hr]
  simp only
  split <;> simp_all

/-! ## The names of a path -/

/-- A name that a path passes as itself: not empty, without a slash, and neither
`.` nor `..`. -/
structure PlainName (name : String) : Prop where
  ne_nil : name.toList ≠ []
  no_slash : '/' ∉ name.toList
  ne_dot : name ≠ "."
  ne_dotdot : name ≠ ".."

instance (name : String) : Decidable (PlainName name) :=
  decidable_of_iff (name.toList ≠ [] ∧ '/' ∉ name.toList ∧ name ≠ "." ∧ name ≠ "..")
    ⟨fun h => ⟨h.1, h.2.1, h.2.2.1, h.2.2.2⟩, fun h => ⟨h.ne_nil, h.no_slash, h.ne_dot, h.ne_dotdot⟩⟩

/-- A name a path may pass on its way down: a plain name, or `.`, which stays
where it is. -/
def StepName (name : String) : Prop := PlainName name ∨ name = "."

instance (name : String) : Decidable (StepName name) :=
  inferInstanceAs (Decidable (PlainName name ∨ name = "."))

theorem StepName.no_slash {name : String} (h : StepName name) : '/' ∉ name.toList := by
  rcases h with h | rfl
  · exact h.no_slash
  · decide

theorem StepName.ne_nil {name : String} (h : StepName name) : name.toList ≠ [] := by
  rcases h with h | rfl
  · exact h.ne_nil
  · decide

theorem StepName.ne_dotdot {name : String} (h : StepName name) : name ≠ ".." := by
  rcases h with h | rfl
  · exact h.ne_dotdot
  · decide

theorem StepName.plain {name : String} (h : StepName name) (hdot : name ≠ ".") : PlainName name :=
  h.resolve_right hdot

theorem splitOnChar_slash_append (a b : String) :
    Text.splitOnChar (a ++ "/" ++ b) '/' = Text.splitOnChar a '/' ++ Text.splitOnChar b '/' := by
  simp only [Text.splitOnChar, String.toList_append, List.append_assoc]
  rw [show "/".toList = ['/'] from rfl, List.singleton_append, List.splitOn_append_cons_self, List.map_append]

theorem splitOnChar_of_not_mem {b : String} (h : '/' ∉ b.toList) : Text.splitOnChar b '/' = [b] := by
  simp [Text.splitOnChar, List.splitOn_eq_singleton h]

theorem endsWith_slash_iff (s : String) : s.endsWith "/" = true ↔ s.toList.getLast? = some '/' := by
  rw [String.endsWith_eq_endsWith_toSlice, String.Slice.endsWith_string_iff, String.copy_toSlice]
  exact List.singleton_suffix_iff_getLast?_eq_some

theorem startsWith_slash_iff (s : String) : s.startsWith "/" = true ↔ s.toList.head? = some '/' := by
  rw [String.startsWith_string_iff]
  exact List.singleton_prefix_iff_head?_eq_some

theorem StepName.startsWith_append {name : String} (h : StepName name) (rest : String) :
    (name ++ rest).startsWith "/" = false := by
  obtain ⟨c, hc⟩ : ∃ c, name.toList.head? = some c := Option.isSome_iff_exists.mp (by simpa using h.ne_nil)
  rw [Bool.eq_false_iff, ne_eq, startsWith_slash_iff, String.toList_append, List.head?_append, hc, Option.some_or]
  exact fun he => h.no_slash (List.mem_of_head? (he ▸ hc))

theorem StepName.endsWith_append {name : String} (h : StepName name) (s : String) :
    (s ++ name).endsWith "/" = false := by
  obtain ⟨c, hc⟩ : ∃ c, name.toList.getLast? = some c := Option.isSome_iff_exists.mp (by simpa using h.ne_nil)
  rw [Bool.eq_false_iff, ne_eq, endsWith_slash_iff, String.toList_append, List.getLast?_append, hc, Option.some_or]
  exact fun he => h.no_slash (List.mem_of_getLast? (he ▸ hc))

theorem lead_of_relative {root path : String} (hroot : root.startsWith "/" = true)
    (hrel : path.startsWith "/" = false) : lead root path = (some [], path) := by
  have h1 : path ≠ root := by
    rintro rfl
    rw [hroot] at hrel
    exact absurd hrel (by decide)
  have h2 : path.startsWith (root ++ "/") = false := by
    rw [Bool.eq_false_iff, ne_eq, String.startsWith_string_iff]
    intro hpre
    have hslash : "/".toList <+: path.toList :=
      ((String.startsWith_string_iff.mp hroot).trans (by simp)).trans hpre
    rw [← String.startsWith_string_iff, hrel] at hslash
    exact absurd hslash (by decide)
  simp [lead, h1, h2, hrel]

theorem lead_of_rooted {root path : String} (hpre : path.startsWith (root ++ "/") = true) :
    lead root path = (some [], (path.drop (root.length + 1)).toString) := by
  have h1 : path ≠ root := by
    rintro rfl
    have hlen := (String.startsWith_string_iff.mp hpre).length_le
    have hslash : "/".length = 1 := by decide
    rw [String.length_toList, String.length_toList, String.length_append] at hlen
    omega
  simp [lead, h1, hpre]

theorem joinPath_eq {dir name : String} (hdir : dir.toList ≠ []) (hend : dir.endsWith "/" = false)
    (hname : PlainName name) : joinPath dir name = dir ++ "/" ++ name := by
  have hstart : name.startsWith "/" = false := by
    rw [Bool.eq_false_iff, ne_eq, startsWith_slash_iff]
    intro h
    exact hname.no_slash (List.mem_of_head? h)
  have hempty : dir.isEmpty = false := by simpa [String.isEmpty_iff] using hdir
  simp [joinPath, hstart, hempty, hend]

end Workspace

end DenyPolicy
