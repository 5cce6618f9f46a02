import DenyPolicy.Proofs.WorkspaceFiles
import Mathlib.Data.List.Infix
/-!
# Places named by their paths

A command names the files of a project by paths: the project's root and then
the names down to the file, or the names alone, read from the root.  A path
spells a place (`Spelling`) when its names are plain names and `.`, the plain
ones being the place's.  For a root named by its canonical path, a spelled path
leads where the place's own path leads (`Spelling.resolve`), there once the
directories above it are there (`resolve_pathOf_of_directories`), and making
its directory makes exactly the directories missing on the way, from the top
down (`Spelling.makeDirectories`), when no file stands at the place or above it
(`Clear`).
-/

namespace DenyPolicy

namespace Workspace

/-- The path through `names` from the top of the file system, each name after a slash. -/
def absolutePath (names : List String) : String := String.join (names.map ("/" ++ ·))

/-- The path of a place in the project: the root's path, then each name of the place. -/
def pathOf (w : Workspace) (place : List String) : String := w.root ++ absolutePath place

/-- A canonical path: the absolute path of plain names, at least one. -/
structure CanonicalPath (path : String) (names : List String) : Prop where
  ne_nil : names ≠ []
  plain : ∀ n ∈ names, PlainName n
  path_eq : path = absolutePath names

/-- No file stands at a place or above it. -/
def Clear (w : Workspace) (place : List String) : Prop := ∀ q ∈ place.inits, w.files.lookup q = none

/-- The places from the top down to `place` where nothing stands yet. -/
def missing (w : Workspace) (place : List String) : List (List String) :=
  place.inits.filter fun q => !q.isEmpty && ( w.entry? q).isNone

/-- The names a relative path keeps when it is read by its text: its plain
names, after a `.` when it opens with one. -/
def keptNames (names : List String) : List String :=
  (if names.head? = some "." then ["."] else []) ++ names.filter (· ≠ ".")

/-- `path` leads down from the root `root` to `place` by `names`, each a plain
name or `.`: the plain names are the place's and the last name is not `.`.  The
path is the root's path and then the names, or the names alone, which are read
from the root. -/
structure Spelling (root path : String) (place names : List String) : Prop where
  step : ∀ n ∈ names, StepName n
  place_eq : names.filter (· ≠ ".") = place
  last_ne_dot : names.getLast? ≠ some "."
  path_eq : path = root ++ absolutePath names ∨ names ≠ [] ∧ path = "/".intercalate names

/-! ## The text of a path -/

@[simp] theorem absolutePath_nil : absolutePath [] = "" := rfl

theorem absolutePath_cons (n : String) (names : List String) :
    absolutePath (n :: names) = "/" ++ n ++ absolutePath names := by
  simp [absolutePath]

theorem absolutePath_append (xs ys : List String) : absolutePath (xs ++ ys) = absolutePath xs ++ absolutePath ys := by
  simp [absolutePath]

theorem pathOf_eq {w : Workspace} {rootNames : List String} (hroot : CanonicalPath w.root rootNames)
    (place : List String) :
    w.pathOf place = absolutePath (rootNames ++ place) := by
  rw [pathOf, hroot.path_eq, absolutePath_append]

theorem pathOf_append_singleton (w : Workspace) (names : List String) (n : String) :
    w.pathOf (names ++ [n]) = w.pathOf names ++ "/" ++ n := by
  simp [pathOf, absolutePath, String.append_assoc]

theorem intercalate_eq_absolutePath (n : String) (names : List String) :
    "/".intercalate (n :: names) = n ++ absolutePath names := by
  induction names generalizing n with
  | nil => simp
  | cons m ms ih => rw [String.intercalate_cons_cons, ih, absolutePath_cons, String.append_assoc, String.append_assoc]

theorem absolutePath_eq_intercalate {names : List String} (h : names ≠ []) :
    absolutePath names = "/" ++ "/".intercalate names := by
  obtain ⟨n, ns, rfl⟩ := List.exists_cons_of_ne_nil h
  rw [intercalate_eq_absolutePath, absolutePath_cons, String.append_assoc]

theorem intercalate_append_singleton {names : List String} (h : names ≠ []) (n : String) :
    "/".intercalate (names ++ [n]) = "/".intercalate names ++ "/" ++ n := by
  obtain ⟨m, ms, rfl⟩ := List.exists_cons_of_ne_nil h
  rw [List.cons_append, intercalate_eq_absolutePath, intercalate_eq_absolutePath, absolutePath_append]
  simp [absolutePath, String.append_assoc]

theorem splitOnChar_append_absolutePath {n : String} (hn : '/' ∉ n.toList) {names : List String}
    (hnames : ∀ m ∈ names, '/' ∉ m.toList) : Text.splitOnChar (n ++ absolutePath names) '/' = n :: names := by
  induction names generalizing n with
  | nil => rw [absolutePath_nil, String.append_empty, splitOnChar_of_not_mem hn]
  | cons m ms ih =>
    have hslash : n ++ absolutePath (m :: ms) = n ++ "/" ++ (m ++ absolutePath ms) := by
      simp [absolutePath_cons, String.append_assoc]
    rw [hslash, splitOnChar_slash_append, splitOnChar_of_not_mem hn,
      ih (hnames m (List.mem_cons_self ..)) fun k hk => hnames k (List.mem_cons_of_mem _ hk)]
    rfl

theorem splitOnChar_intercalate {names : List String} (hnames : ∀ m ∈ names, '/' ∉ m.toList) (h : names ≠ []) :
    Text.splitOnChar ("/".intercalate names) '/' = names := by
  obtain ⟨n, ns, rfl⟩ := List.exists_cons_of_ne_nil h
  rw [intercalate_eq_absolutePath]
  exact splitOnChar_append_absolutePath (hnames n (List.mem_cons_self ..))
    fun k hk => hnames k (List.mem_cons_of_mem _ hk)

theorem filter_ne_dot_of_plain {names : List String} (h : ∀ m ∈ names, PlainName m) :
    names.filter (· ≠ ".") = names :=
  List.filter_eq_self.mpr fun m hm => by simpa using (h m hm).ne_dot

theorem filter_kept_of_steps {names : List String} (h : ∀ m ∈ names, StepName m) :
    names.filter (fun p => p ≠ "" ∧ p ≠ ".") = names.filter (· ≠ ".") :=
  List.filter_congr fun m hm => by
    have hne : m ≠ "" := fun he => (h m hm).ne_nil (by simp [he])
    simp [hne]

theorem steps_append_plain {pre : List String} (hpre : ∀ m ∈ pre, StepName m) {n : String} (hn : PlainName n) :
    ∀ m ∈ pre ++ [n], StepName m := fun m hm =>
  (List.mem_append.mp hm).elim (hpre m) fun h => (List.mem_singleton.mp h) ▸ .inl hn

theorem CanonicalPath.steps_append {root : String} {rootNames : List String} (hroot : CanonicalPath root rootNames)
    {names : List String} (hnames : ∀ m ∈ names, StepName m) : ∀ m ∈ rootNames ++ names, StepName m :=
  fun m hm =>
  (List.mem_append.mp hm).elim (fun h => .inl (hroot.plain m h)) (hnames m)

theorem pathNames_absolutePath {names : List String} (hnames : ∀ m ∈ names, StepName m) :
    pathNames (absolutePath names) = names.filter (· ≠ ".") := by
  have hsplit : Text.splitOnChar (absolutePath names) '/' = "" :: names := by
    simpa using splitOnChar_append_absolutePath (n := "") (by simp) fun m hm => (hnames m hm).no_slash
  simp only [pathNames, hsplit, List.filter_cons, filter_kept_of_steps hnames]
  simp

theorem pathNames_pathOf {w : Workspace} {rootNames : List String} (hroot : CanonicalPath w.root rootNames)
    {names : List String} (hnames : ∀ m ∈ names, StepName m) :
    pathNames (w.pathOf names) = rootNames ++ names.filter (· ≠ ".") := by
  rw [pathOf_eq hroot, pathNames_absolutePath (hroot.steps_append hnames), List.filter_append,
    filter_ne_dot_of_plain hroot.plain]

theorem startsWith_absolutePath {names : List String} (h : names ≠ []) :
    (absolutePath names).startsWith "/" = true := by
  obtain ⟨n, ns, rfl⟩ := List.exists_cons_of_ne_nil h
  rw [absolutePath_cons, startsWith_slash_iff]
  simp

theorem CanonicalPath.startsWith {root : String} {rootNames : List String} (hroot : CanonicalPath root rootNames) :
    root.startsWith "/" = true := by
  rw [hroot.path_eq]
  exact startsWith_absolutePath hroot.ne_nil

theorem startsWith_intercalate {names : List String} (hnames : ∀ m ∈ names, StepName m) (h : names ≠ []) :
    ("/".intercalate names).startsWith "/" = false := by
  obtain ⟨n, ns, rfl⟩ := List.exists_cons_of_ne_nil h
  rw [intercalate_eq_absolutePath]
  exact (hnames n (List.mem_cons_self ..)).startsWith_append _

theorem toList_intercalate_ne_nil {names : List String} (hnames : ∀ m ∈ names, StepName m) (h : names ≠ []) :
    ("/".intercalate names).toList ≠ [] := by
  obtain ⟨n, ns, rfl⟩ := List.exists_cons_of_ne_nil h
  rw [intercalate_eq_absolutePath, String.toList_append]
  exact fun hnil => (hnames n (List.mem_cons_self ..)).ne_nil (List.append_eq_nil_iff.mp hnil).1

theorem isEmpty_of_toList_ne_nil {s : String} (h : s.toList ≠ []) : s.isEmpty = false := by
  rw [Bool.eq_false_iff, ne_eq, String.isEmpty_iff]
  rintro rfl
  exact h rfl

theorem pathNames_intercalate {names : List String} (hnames : ∀ m ∈ names, StepName m) (h : names ≠ []) :
    pathNames ("/".intercalate names) = keptNames names := by
  have hsplit := splitOnChar_intercalate (fun m hm => (hnames m hm).no_slash) h
  unfold pathNames keptNames
  simp only [hsplit, startsWith_intercalate hnames h, filter_kept_of_steps hnames]
  split <;> simp_all

theorem keptNames_append_plain (pre : List String) {n : String} (hn : PlainName n) :
    keptNames (pre ++ [n]) = keptNames pre ++ [n] := by
  have hhead : (if (pre ++ [n]).head? = some "." then ["."] else []) =
      if pre.head? = some "." then ["."] else [] := by
    cases pre with
    | nil => simp [hn.ne_dot]
    | cons m ms => rfl
  unfold keptNames
  rw [hhead, List.filter_append, List.filter_cons_of_pos (by simpa using hn.ne_dot), List.filter_nil,
    List.append_assoc]

theorem filter_keptNames (names : List String) : (keptNames names).filter (· ≠ ".") = names.filter (· ≠ ".") := by
  unfold keptNames
  split <;> simp [List.filter_filter]

theorem steps_keptNames {names : List String} (hnames : ∀ m ∈ names, StepName m) :
    ∀ m ∈ keptNames names, StepName m := by
  intro m hm
  unfold keptNames at hm
  rcases List.mem_append.mp hm with h | h
  · split at h
    · exact .inr (List.mem_singleton.mp h)
    · simp at h
  · exact hnames m (List.mem_of_mem_filter h)

theorem endsWith_absolutePath {names : List String} (hnames : ∀ m ∈ names, StepName m) (h : names ≠ []) :
    (absolutePath names).endsWith "/" = false := by
  obtain ⟨pre, n, rfl⟩ : ∃ pre n, names = pre ++ [n] := ⟨_, _, (List.dropLast_append_getLast h).symm⟩
  have hend := (hnames n (by simp)).endsWith_append (absolutePath pre ++ "/")
  simpa [absolutePath_append, absolutePath, String.append_assoc] using hend

theorem endsWith_intercalate {names : List String} (hnames : ∀ m ∈ names, StepName m) (h : names ≠ []) :
    ("/".intercalate names).endsWith "/" = false := by
  obtain ⟨pre, n, rfl⟩ : ∃ pre n, names = pre ++ [n] := ⟨_, _, (List.dropLast_append_getLast h).symm⟩
  have hn := hnames n (by simp)
  rcases eq_or_ne pre [] with rfl | hpre
  · simpa using hn.endsWith_append ""
  · rw [intercalate_append_singleton hpre]
    exact hn.endsWith_append _

/-- A plain name joined onto a path below the root is that path one name further down. -/
theorem joinPath_pathOf {w : Workspace} {rootNames : List String} (hroot : CanonicalPath w.root rootNames)
    {names : List String} (hnames : ∀ m ∈ names, StepName m) {n : String} (hn : PlainName n) :
    joinPath (w.pathOf names) n = w.pathOf (names ++ [n]) := by
  have hne : rootNames ++ names ≠ [] := by simp [hroot.ne_nil]
  have hpath : (w.pathOf names).toList ≠ [] := by
    rw [pathOf_eq hroot, absolutePath_eq_intercalate hne]
    simp
  rw [joinPath_eq hpath (by rw [pathOf_eq hroot]; exact endsWith_absolutePath (hroot.steps_append hnames) hne) hn,
    pathOf_append_singleton]

theorem joinPath_intercalate {names : List String} (hnames : ∀ m ∈ names, StepName m) (h : names ≠ [])
    {n : String} (hn : PlainName n) : joinPath ("/".intercalate names) n = "/".intercalate (names ++ [n]) := by
  rw [joinPath_eq (toList_intercalate_ne_nil hnames h) (endsWith_intercalate hnames h) hn,
    intercalate_append_singleton h]

/-- The directory above a place, by the text of a path from the top down to it. -/
theorem parentPath?_pathOf {w : Workspace} {rootNames : List String} (hroot : CanonicalPath w.root rootNames)
    {pre : List String} (hpre : ∀ m ∈ pre, StepName m) {n : String} (hn : PlainName n) :
    parentPath? (w.pathOf (pre ++ [n])) = some (w.pathOf (pre.filter (· ≠ "."))) := by
  have hsteps := steps_append_plain hpre hn
  have hne : rootNames ++ pre.filter (· ≠ ".") ≠ [] := by simp [hroot.ne_nil]
  have hnames : pathNames (w.pathOf (pre ++ [n])) = rootNames ++ pre.filter (· ≠ ".") ++ [n] := by
    rw [pathNames_pathOf hroot hsteps, List.filter_append]
    simp [hn.ne_dot]
  have hstart : (w.pathOf (pre ++ [n])).startsWith "/" = true := by
    rw [pathOf_eq hroot]
    exact startsWith_absolutePath (by simp [hroot.ne_nil])
  have hparent :
      "/" ++ "/".intercalate (rootNames ++ pre.filter (· ≠ ".")) = w.pathOf (pre.filter (· ≠ ".")) := by
    rw [pathOf_eq hroot, absolutePath_eq_intercalate hne]
  have hpath : (w.pathOf (pre.filter (· ≠ "."))).isEmpty = false := by
    rw [← hparent]
    simp
  unfold parentPath?
  simp only [hnames, hstart, if_true, List.dropLast_concat, hparent, hpath]
  simp

/-- The directory above a place, by the text of a path from the root down to
it: none when the path holds the place's name alone. -/
theorem parentPath?_intercalate {pre : List String} (hpre : ∀ m ∈ pre, StepName m) {n : String} (hn : PlainName n) :
    parentPath? ("/".intercalate (pre ++ [n])) =
      if keptNames pre = [] then none else some ("/".intercalate (keptNames pre)) := by
  have hsteps := steps_append_plain hpre hn
  unfold parentPath?
  rw [pathNames_intercalate hsteps (by simp), keptNames_append_plain pre hn]
  simp only [startsWith_intercalate hsteps (by simp), List.dropLast_concat]
  by_cases hkept : keptNames pre = []
  · simp [hkept]
  · have hempty : ("/".intercalate (keptNames pre)).isEmpty = false :=
      isEmpty_of_toList_ne_nil (toList_intercalate_ne_nil (steps_keptNames hpre) hkept)
    simp [hkept, hempty]

/-! ## Following the path of a place -/

theorem lead_pathOf (w : Workspace) {place : List String} (hne : place ≠ []) :
    lead w.root (w.pathOf place) = (some [], "/".intercalate place) := by
  have hpath : w.pathOf place = w.root ++ "/" ++ "/".intercalate place := by
    rw [pathOf, absolutePath_eq_intercalate hne, String.append_assoc]
  have hpre : (w.pathOf place).startsWith (w.root ++ "/") = true := by
    rw [hpath, String.startsWith_string_iff]
    exact ⟨("/".intercalate place).toList, by simp⟩
  have hlen : (w.root ++ "/").toList.length = w.root.length + 1 := by
    rw [String.toList_append, List.length_append, String.length_toList]
    rfl
  have hdrop : ((w.pathOf place).drop (w.root.length + 1)).toString = "/".intercalate place := by
    apply String.toList_inj.mp
    simp only [String.Slice.toString_eq, String.toList_copy_drop]
    rw [hpath, String.toList_append, ← hlen, List.drop_left]
  rw [lead_of_rooted hpre, hdrop]

/-- Passing `.` stays where it is. -/
theorem pass_filter_dot {w : Workspace} {ms : List String} (hms : ∀ m ∈ ms, StepName m)
    (here : Option (List String)) :
    w.pass here (ms.filter (· ≠ ".")) = w.pass here ms := by
  induction ms generalizing here with
  | nil => rfl
  | cons m rest ih =>
    have hrest : ∀ k ∈ rest, StepName k := fun k hk => hms k (List.mem_cons_of_mem _ hk)
    rcases hms m (List.mem_cons_self ..) with hm | rfl
    · rw [List.filter_cons_of_pos (by simpa using hm.ne_dot)]
      unfold pass
      simp only [hm.ne_dot, hm.ne_dotdot, if_false]
      cases here with
      | none => rfl
      | some p =>
        simp only
        split
        · exact ih hrest _
        · rfl
        · rfl
    · rw [List.filter_cons_of_neg (by simp), ih hrest]
      simp [pass]

/-- Following the names of a place: the directories above it are passed, `.`
staying where it is, and the last name is the place reached. -/
theorem follow_intercalate {w : Workspace} {ms : List String} {n : String} (hms : ∀ m ∈ ms, StepName m)
    (hn : PlainName n) (start : Option (List String)) (path : String) :
    w.follow start ("/".intercalate (ms ++ [n])) path =
      (w.pass start (ms.filter (· ≠ "."))).bind fun here =>
        .ok (here.elim .outside fun p => .named (p ++ [n]) false) := by
  have hsteps := steps_append_plain hms hn
  have hkept : (ms ++ [n]).filter (· ≠ "") = ms ++ [n] :=
    List.filter_eq_self.mpr fun m hm => by simpa using fun h => (hsteps m hm).ne_nil (by simp [h])
  have hnames :
      ((Text.splitOnChar ("/".intercalate (ms ++ [n])) '/').filter (· ≠ "")).reverse = n :: ms.reverse := by
    rw [splitOnChar_intercalate (fun m hm => (hsteps m hm).no_slash) (by simp), hkept]
    simp
  rw [follow, hnames, pass_filter_dot hms]
  simp only [List.reverse_reverse, hn.ne_dot, hn.ne_dotdot, or_self, if_false,
    endsWith_intercalate hsteps (by simp)]
  cases w.pass start ms with
  | error f => rfl
  | ok here => cases here <;> rfl

/-- Passing plain names whose places are all directories reaches the last of them. -/
theorem pass_of_directories {w : Workspace} {ms : List String} (hplain : ∀ m ∈ ms, PlainName m) {p : List String}
    (hdirs : ∀ q ∈ ms.inits, q ≠ [] → w.entry? (p ++ q) = some .directory) :
    w.pass (some p) ms = .ok (some (p ++ ms)) := by
  induction ms generalizing p with
  | nil => simp [pass]
  | cons m rest ih =>
    have hm := hplain m (List.mem_cons_self ..)
    have hdir : w.entry? (p ++ [m]) = some .directory := hdirs [m] (by simp) (by simp)
    have hrest := ih (fun k hk => hplain k (List.mem_cons_of_mem _ hk)) (p := p ++ [m]) fun q hq hne => by
      simpa using hdirs (m :: q) (by simpa using hq) (by simp)
    rw [pass, if_neg hm.ne_dot, if_neg hm.ne_dotdot]
    simp only [hdir, hrest, List.append_assoc, List.singleton_append]

/-- Passing plain names with no file on the way stops at the first place where
nothing stands. -/
theorem pass_of_missing {w : Workspace} {ms : List String} (hplain : ∀ m ∈ ms, PlainName m) {p : List String}
    (hclear : ∀ q ∈ ms.inits, w.files.lookup (p ++ q) = none)
    (hmissing : ∃ q ∈ ms.inits, q ≠ [] ∧ w.entry? (p ++ q) = none) :
    w.pass (some p) ms = .error .notFound := by
  induction ms generalizing p with
  | nil =>
    obtain ⟨q, hq, hne, -⟩ := hmissing
    simp at hq
    exact absurd hq hne
  | cons m rest ih =>
    have hm := hplain m (List.mem_cons_self ..)
    rw [pass, if_neg hm.ne_dot, if_neg hm.ne_dotdot]
    rcases entry?_of_lookup_none (hclear [m] (by simp)) with hentry | hentry
    · rw [hentry]
    · rw [hentry]
      apply ih (fun k hk => hplain k (List.mem_cons_of_mem _ hk))
      · intro q hq
        simpa using hclear (m :: q) (by simpa using hq)
      · obtain ⟨q, hq, hne, hnone⟩ := hmissing
        obtain ⟨q', rfl⟩ : ∃ q', q = m :: q' := by
          rcases (List.mem_inits _ _).mp hq with ⟨r, hr⟩
          cases q with
          | nil => exact absurd rfl hne
          | cons k q' =>
            obtain ⟨rfl, -⟩ := List.cons_eq_cons.mp hr
            exact ⟨q', rfl⟩
        have hq' : q' ≠ [] := by
          rintro rfl
          rw [hentry] at hnone
          cases hnone
        exact ⟨q', by simpa using hq, hq', by simpa using hnone⟩

theorem resolve_pathOf {w : Workspace} {ms : List String} {n : String} (hplain : ∀ m ∈ ms ++ [n], PlainName m) :
    w.resolve (w.pathOf (ms ++ [n])) =
      (w.pass (some []) ms).bind fun here => .ok (here.elim .outside fun p => .named (p ++ [n]) false) := by
  have hms : ∀ m ∈ ms, PlainName m := fun m hm => hplain m (List.mem_append_left _ hm)
  rw [resolve, lead_pathOf w (by simp), follow_intercalate (fun m hm => .inl (hms m hm)) (hplain n (by simp)),
    filter_ne_dot_of_plain hms]

theorem resolve_pathOf_of_directories {w : Workspace} {ms : List String} {n : String}
    (hplain : ∀ m ∈ ms ++ [n], PlainName m)
    (hdirs : ∀ q ∈ ms.inits, q ≠ [] → w.entry? q = some .directory) :
    w.resolve (w.pathOf (ms ++ [n])) = .ok (.named (ms ++ [n]) false) := by
  rw [resolve_pathOf hplain,
    pass_of_directories (fun m hm => hplain m (List.mem_append_left _ hm)) (p := []) (by simpa using hdirs)]
  rfl

theorem resolve_pathOf_of_missing {w : Workspace} {ms : List String} {n : String}
    (hplain : ∀ m ∈ ms ++ [n], PlainName m) (hclear : w.Clear ms)
    (hmissing : ∃ q ∈ ms.inits, q ≠ [] ∧ w.entry? q = none) :
    w.resolve (w.pathOf (ms ++ [n])) = .error .notFound := by
  rw [resolve_pathOf hplain,
    pass_of_missing (fun m hm => hplain m (List.mem_append_left _ hm)) (p := [])
      (fun q hq => by rw [List.nil_append]; exact hclear q hq) (by simpa using hmissing)]
  rfl

theorem resolve_root {w : Workspace} {rootNames : List String} (hroot : CanonicalPath w.root rootNames) :
    w.resolve w.root = .ok .directory := by
  have hne : w.root.isEmpty = false := by
    rw [hroot.path_eq, absolutePath_eq_intercalate hroot.ne_nil]
    simp
  simp [resolve, lead, follow, Text.splitOnChar, hne]

/-! ## Spelled paths -/

theorem plain_of_mem_filter {names : List String} (hnames : ∀ m ∈ names, StepName m) :
    ∀ m ∈ names.filter (· ≠ "."), PlainName m := by
  intro m hm
  rw [List.mem_filter] at hm
  exact (hnames m hm.1).plain (by simpa using hm.2)

namespace Spelling

variable {root path : String} {place names : List String}

theorem plain (hs : Spelling root path place names) : ∀ m ∈ place, PlainName m :=
  hs.place_eq ▸ plain_of_mem_filter hs.step

theorem ne_nil (hs : Spelling root path place names) (hne : place ≠ []) : names ≠ [] := by
  rintro rfl
  exact hne (by simpa using hs.place_eq.symm)

/-- A path spelling a place below the root ends in the place's last name. -/
theorem exists_last (hs : Spelling root path place names) (hne : place ≠ []) :
    ∃ pre n, names = pre ++ [n] ∧ (∀ m ∈ pre, StepName m) ∧ PlainName n ∧
      place = pre.filter (· ≠ ".") ++ [n] := by
  obtain ⟨pre, n, rfl⟩ : ∃ pre n, names = pre ++ [n] :=
    ⟨_, _, (List.dropLast_append_getLast (hs.ne_nil hne)).symm⟩
  have hn : PlainName n := (hs.step n (by simp)).plain fun h => hs.last_ne_dot (by simp [h])
  refine ⟨pre, n, rfl, fun m hm => hs.step m (List.mem_append_left _ hm), hn, ?_⟩
  rw [← hs.place_eq, List.filter_append, List.filter_cons_of_pos (by simpa using hn.ne_dot), List.filter_nil]

/-- Plain names after `.`s spell the place of the plain names. -/
theorem dots_append {dots : List String} (hdots : ∀ m ∈ dots, m = ".") (hplain : ∀ m ∈ place, PlainName m)
    (hne : place ≠ [])
    (hpath : path = root ++ absolutePath (dots ++ place) ∨ path = "/".intercalate (dots ++ place)) :
    Spelling root path place (dots ++ place) where
  step m hm := (List.mem_append.mp hm).elim (fun h => .inr (hdots m h)) fun h => .inl (hplain m h)
  place_eq := by
    rw [List.filter_append, filter_ne_dot_of_plain hplain, List.filter_eq_nil_iff.mpr (by simpa using hdots),
      List.nil_append]
  last_ne_dot := by
    obtain ⟨pre, n, rfl⟩ : ∃ pre n, place = pre ++ [n] := ⟨_, _, (List.dropLast_append_getLast hne).symm⟩
    simpa [← List.append_assoc] using (hplain n (by simp)).ne_dot
  path_eq := hpath.imp_right fun h => ⟨by simp [hne], h⟩

/-- A spelled path leads where the place's own path leads. -/
theorem resolve {w : Workspace} {rootNames : List String} (hroot : CanonicalPath w.root rootNames)
    (hs : Spelling w.root path place names) (hne : place ≠ []) : w.resolve path = w.resolve (w.pathOf place) := by
  obtain ⟨pre, n, rfl, hpre, hn, rfl⟩ := hs.exists_last hne
  rw [resolve_pathOf hs.plain]
  rcases hs.path_eq with rfl | ⟨-, rfl⟩
  · rw [Workspace.resolve, show w.root ++ absolutePath (pre ++ [n]) = w.pathOf (pre ++ [n]) from rfl,
      lead_pathOf w (by simp), follow_intercalate hpre hn]
  · rw [Workspace.resolve, lead_of_relative hroot.startsWith (startsWith_intercalate hs.step (by simp)),
      follow_intercalate hpre hn]

end Spelling

/-! ## Directories made -/

theorem mem_of_lookup_eq_some {files : List (List String × String)} {q : List String} {t : String}
    (h : files.lookup q = some t) : (q, t) ∈ files := by
  obtain ⟨l₁, l₂, rfl, -⟩ := List.lookup_eq_some_iff.mp h
  simp

theorem above_iff {a b : List String} : above a b = true ↔ a.length < b.length ∧ a <+: b := by
  simp [above, List.isPrefixOf_iff_prefix]

theorem prefix_iff_eq_or_above {a b : List String} : a <+: b ↔ a = b ∨ above a b = true := by
  rw [above_iff]
  constructor
  · intro h
    by_cases heq : a = b
    · exact .inl heq
    · exact .inr ⟨lt_of_le_of_ne h.length_le fun hl => heq (h.eq_of_length hl), h⟩
  · rintro (rfl | ⟨-, h⟩)
    · exact List.prefix_rfl
    · exact h

/-- Nothing stands at a place exactly when it is not the top and no file and no
directory lies at it or below it. -/
theorem entry?_eq_none_iff {w : Workspace} {q : List String} :
    w.entry? q = none ↔ q ≠ [] ∧ (∀ f ∈ w.files, ¬ q <+: f.1) ∧ ∀ d ∈ w.directories, ¬ q <+: d := by
  have hfiles : (w.files.lookup q = none ∧ w.files.any (fun f => above q f.1) = false) ↔
      ∀ f ∈ w.files, ¬ q <+: f.1 := by
    simp only [List.lookup_eq_none_iff, List.any_eq_false, prefix_iff_eq_or_above, not_or, bne_iff_ne, ne_eq,
      Bool.not_eq_true, ← forall_and]
  have hdirs : (w.directories.contains q = false ∧ w.directories.any (above q) = false) ↔
      ∀ d ∈ w.directories, ¬ q <+: d := by
    simp only [← Bool.not_eq_true, List.contains_iff_mem, List.any_eq_true, not_exists, not_and,
      prefix_iff_eq_or_above, not_or, forall_and, List.forall_mem_ne]
  unfold entry?
  cases hl : w.files.lookup q with
  | some t =>
    simp only [reduceCtorEq, false_iff]
    rintro ⟨-, hf, -⟩
    exact hf _ (mem_of_lookup_eq_some hl) List.prefix_rfl
  | none =>
    simp only [Bool.or_eq_true, ite_eq_right_iff, reduceCtorEq, imp_false, not_or, Bool.not_eq_true]
    rw [← hfiles, ← hdirs, hl, List.isEmpty_eq_false_iff]
    tauto

theorem entry?_eq_none_of_prefix {w : Workspace} {q q' : List String} (hpre : q <+: q') (hq : w.entry? q = none) :
    w.entry? q' = none := by
  obtain ⟨hne, hfiles, hdirs⟩ := entry?_eq_none_iff.mp hq
  refine entry?_eq_none_iff.mpr
    ⟨?_, fun f hf h => hfiles f hf (hpre.trans h), fun d hd h => hdirs d hd (hpre.trans h)⟩
  rintro rfl
  exact hne (List.prefix_nil.mp hpre)

/-- Directories made below no other place leave what stands there as it was. -/
theorem entry?_addDirectories_of_not_prefix {w : Workspace} {ds : List (List String)} {q : List String}
    (h : ∀ d ∈ ds, ¬ q <+: d) : entry? { w with directories := w.directories ++ ds } q = w.entry? q := by
  have hcontains : ds.contains q = false := by
    rw [Bool.eq_false_iff]
    intro hc
    exact h q (List.contains_iff_mem.mp hc) List.prefix_rfl
  have hany : ds.any (above q) = false := by
    rw [Bool.eq_false_iff]
    intro hc
    obtain ⟨d, hd, hqd⟩ := List.any_eq_true.mp hc
    exact h d hd (above_iff.mp hqd).2
  unfold entry?
  simp only [List.contains_append, List.any_append, hcontains, hany, Bool.or_false]

theorem entry?_addDirectories_of_mem {w : Workspace} {ds : List (List String)} {q : List String} (hq : q ∈ ds)
    (hl : w.files.lookup q = none) : entry? { w with directories := w.directories ++ ds } q = some .directory := by
  have hcontains : (w.directories ++ ds).contains q = true := List.contains_iff_mem.mpr (List.mem_append_right _ hq)
  unfold entry?
  simp only [hl, hcontains, Bool.or_true, Bool.true_or, if_true]

/-- Making directories keeps every directory. -/
theorem keeps_addDirectories (w : Workspace) (ds : List (List String)) :
    w.Keeps { w with directories := w.directories ++ ds } := by
  refine ⟨rfl, fun p hp => ?_⟩
  unfold entry? at hp ⊢
  split at hp
  · cases hp
  · rename_i hl
    simp only [hl]
    split at hp
    · rename_i hc
      rw [if_pos]
      simp only [Bool.or_eq_true, List.contains_append, List.any_append] at hc ⊢
      rcases hc with ((h1 | h2) | h3) | h4
      · exact Or.inl (Or.inl (Or.inl h1))
      · exact Or.inl (Or.inl (Or.inr (Or.inl h2)))
      · exact Or.inl (Or.inr h3)
      · exact Or.inr (Or.inl h4)
    · cases hp

theorem mem_missing {w : Workspace} {place q : List String} :
    q ∈ w.missing place ↔ q <+: place ∧ q ≠ [] ∧ w.entry? q = none := by
  simp [missing, Option.isNone_iff_eq_none]

theorem missing_snoc (w : Workspace) (ms : List String) (n : String) :
    w.missing (ms ++ [n]) = w.missing ms ++ if ( w.entry? (ms ++ [n])).isNone then [ms ++ [n]] else [] := by
  simp only [missing, List.inits_append, List.filter_append]
  congr 1
  split <;> simp_all

theorem entry?_below_missing (w : Workspace) (ms : List String) (n : String) :
    entry? { w with directories := w.directories ++ w.missing ms } (ms ++ [n]) = w.entry? (ms ++ [n]) :=
  entry?_addDirectories_of_not_prefix fun d hd hpre => by
    have hlen := hpre.length_le.trans (mem_missing.mp hd).1.length_le
    simp only [List.length_append, List.length_singleton] at hlen
    omega

theorem entry?_of_missing_made {w : Workspace} {place : List String} (hclear : w.Clear place)
    {q : List String} (hq : q ∈ place.inits) (hne : q ≠ []) :
    entry? { w with directories := w.directories ++ w.missing place } q = some .directory := by
  rcases entry?_of_lookup_none (hclear q hq) with he | he
  · exact entry?_addDirectories_of_mem (mem_missing.mpr ⟨(List.mem_inits _ _).mp hq, hne, he⟩) (hclear q hq)
  · exact (keeps_addDirectories w _).directory q he

theorem makeDirectory_of_absent {w : Workspace} {path : String} {place : List String} {slash : Bool}
    (hr : w.resolve path = .ok (.named place slash)) (hn : w.entry? place = none) :
    w.makeDirectory path = .ok { w with directories := w.directories ++ [place] } := by
  simp [makeDirectory, hr, hn]

theorem makeDirectory_of_present {w : Workspace} {path : String} {place : List String} {slash : Bool} {e : Entry}
    (hr : w.resolve path = .ok (.named place slash)) (he : w.entry? place = some e) :
    w.makeDirectory path = .error .alreadyExists := by
  simp [makeDirectory, hr, he]

theorem makeDirectory_of_resolve_error {w : Workspace} {path : String} {f : FileFault}
    (hr : w.resolve path = .error f) : w.makeDirectory path = .error f := by
  simp [makeDirectory, hr]

/-- Making the root's directory changes nothing: it is there. -/
theorem makeDirectoriesFrom_root {w : Workspace} {rootNames : List String} (hroot : CanonicalPath w.root rootNames) :
    w.makeDirectoriesFrom "/" rootNames.reverse = .ok w := by
  obtain ⟨r, rs, hr⟩ : ∃ r rs, rootNames.reverse = r :: rs :=
    List.exists_cons_of_ne_nil (by simpa using hroot.ne_nil)
  have hpath : "/" ++ "/".intercalate (r :: rs).reverse = w.root := by
    rw [← hr, List.reverse_reverse, hroot.path_eq, absolutePath_eq_intercalate hroot.ne_nil]
  have hmake : w.makeDirectory w.root = .error .alreadyExists := by
    simp [makeDirectory, resolve_root hroot]
  have hdir : w.isDirectory w.root = true := by
    simp [isDirectory, resolve_root hroot]
  rw [hr, makeDirectoriesFrom]
  simp only [hpath, hmake, hdir, if_true]

theorem makeDirectoriesFrom_dot {w : Workspace} {rootNames : List String} (hroot : CanonicalPath w.root rootNames) :
    w.makeDirectoriesFrom "" ["."] = .ok w := by
  have hr : w.resolve "." = .ok .directory := by
    rw [resolve, lead_of_relative hroot.startsWith (by simp)]
    rfl
  simp [makeDirectoriesFrom, makeDirectory, isDirectory, hr]

/-- Making the directory of a place, named after `base` by a path that spells
each place on the way, makes the directories missing at the place and above it,
from the top down, when no file is in the way. -/
theorem makeDirectoriesFrom_spelled {w : Workspace} {rootNames : List String} (hroot : CanonicalPath w.root rootNames)
    {lead : String} {base : List String} (hbase : w.makeDirectoriesFrom lead base.reverse = .ok w)
    (hspell : ∀ ms n, (∀ m ∈ ms ++ [n], PlainName m) →
      ∃ names, Spelling w.root (lead ++ "/".intercalate (base ++ (ms ++ [n]))) (ms ++ [n]) names)
    {place : List String} (hplain : ∀ m ∈ place, PlainName m) (hclear : w.Clear place) :
    w.makeDirectoriesFrom lead (base ++ place).reverse =
      .ok { w with directories := w.directories ++ w.missing place } := by
  induction place using List.reverseRecOn with
  | nil => simpa [missing] using hbase
  | append_singleton ms n ih =>
    have hplain' : ∀ m ∈ ms, PlainName m := fun m hm => hplain m (List.mem_append_left _ hm)
    have hclear' : w.Clear ms := fun q hq => hclear q (by simp [List.inits_append, hq])
    have hlast : w.files.lookup (ms ++ [n]) = none := hclear _ (by simp)
    obtain ⟨names, hs⟩ := hspell ms n hplain
    have hresolve : ∀ w' : Workspace, w'.root = w.root →
        w'.resolve (lead ++ "/".intercalate (base ++ (ms ++ [n]))) = w'.resolve (w'.pathOf (ms ++ [n])) :=
      fun w' h => Spelling.resolve (h ▸ hroot) (h ▸ hs) (by simp)
    have hrev : (base ++ (ms ++ [n])).reverse = n :: (base ++ ms).reverse := by simp
    have hpath : lead ++ "/".intercalate (n :: (base ++ ms).reverse).reverse =
        lead ++ "/".intercalate (base ++ (ms ++ [n])) := by simp
    rw [hrev, makeDirectoriesFrom]
    simp only [hpath]
    by_cases hdirs : ∀ q ∈ ms.inits, q ≠ [] → w.entry? q = some .directory
    · have hr := (hresolve w rfl).trans (resolve_pathOf_of_directories hplain hdirs)
      have hmissing : w.missing ms = [] :=
        List.eq_nil_iff_forall_not_mem.mpr fun q hq => by
          obtain ⟨hpre, hne, hnone⟩ := mem_missing.mp hq
          rw [hdirs q ((List.mem_inits _ _).mpr hpre) hne] at hnone
          cases hnone
      rcases entry?_of_lookup_none hlast with he | he
      · rw [makeDirectory_of_absent hr he]
        simp [missing_snoc, hmissing, he]
      · have hisdir : w.isDirectory (lead ++ "/".intercalate (base ++ (ms ++ [n]))) = true := by
          simp [isDirectory, hr, he]
        rw [makeDirectory_of_present hr he]
        simp only [hisdir, if_true]
        simp [missing_snoc, hmissing, he]
    · push Not at hdirs
      obtain ⟨q, hq, hne, hqd⟩ := hdirs
      have hqnone : w.entry? q = none := (entry?_of_lookup_none (hclear' q hq)).resolve_right hqd
      have hr := (hresolve w rfl).trans (resolve_pathOf_of_missing hplain hclear' ⟨q, hq, hne, hqnone⟩)
      have hr₁ : ({ w with directories := w.directories ++ w.missing ms } : Workspace).resolve
          (lead ++ "/".intercalate (base ++ (ms ++ [n]))) = .ok (.named (ms ++ [n]) false) :=
        (hresolve { w with directories := w.directories ++ w.missing ms } rfl).trans
          (resolve_pathOf_of_directories hplain fun q hq hne => entry?_of_missing_made hclear' hq hne)
      have hn : w.entry? (ms ++ [n]) = none :=
        entry?_eq_none_of_prefix (((List.mem_inits _ _).mp hq).trans (List.prefix_append _ _)) hqnone
      have hn₁ : Workspace.entry? { w with directories := w.directories ++ w.missing ms } (ms ++ [n]) = none := by
        rw [entry?_below_missing, hn]
      rw [makeDirectory_of_resolve_error hr]
      simp only [ih hplain' hclear', ok_bind, makeDirectory_of_absent hr₁ hn₁]
      simp [missing_snoc, hn]

/-- Making the directory of a path from the top, through plain names and `.`,
makes the directories missing down to the place of its plain names, when no
file is in the way. -/
theorem makeDirectories_pathOf {w : Workspace} {rootNames : List String} (hroot : CanonicalPath w.root rootNames)
    {names : List String} (hnames : ∀ m ∈ names, StepName m) (hclear : w.Clear (names.filter (· ≠ "."))) :
    w.makeDirectories (w.pathOf names) =
      .ok { w with directories := w.directories ++ w.missing (names.filter (· ≠ ".")) } := by
  have hne : rootNames ++ names ≠ [] := by simp [hroot.ne_nil]
  have hempty : (w.pathOf names).isEmpty = false := by
    rw [pathOf_eq hroot, absolutePath_eq_intercalate hne]
    simp
  have hstart : (w.pathOf names).startsWith "/" = true := by
    rw [pathOf_eq hroot]
    exact startsWith_absolutePath hne
  rw [makeDirectories, hempty, hstart, pathNames_pathOf hroot hnames]
  refine makeDirectoriesFrom_spelled hroot (makeDirectoriesFrom_root hroot)
    (fun ms n h => ⟨[] ++ (ms ++ [n]), Spelling.dots_append (by simp) h (by simp) (.inl ?_)⟩)
    (plain_of_mem_filter hnames) hclear
  rw [List.nil_append, hroot.path_eq, ← absolutePath_append, absolutePath_eq_intercalate (by simp [hroot.ne_nil])]

/-- Making the directory of a path of plain names and `.` from the root makes the
directories missing down to the place of its plain names, when no file is in
the way. -/
theorem makeDirectories_intercalate {w : Workspace} {rootNames : List String} (hroot : CanonicalPath w.root rootNames)
    {names : List String} (hnames : ∀ m ∈ names, StepName m) (hne : names ≠ [])
    (hclear : w.Clear (names.filter (· ≠ "."))) :
    w.makeDirectories ("/".intercalate names) =
      .ok { w with directories := w.directories ++ w.missing (names.filter (· ≠ ".")) } := by
  have hempty : ("/".intercalate names).isEmpty = false := by
    exact isEmpty_of_toList_ne_nil (toList_intercalate_ne_nil hnames hne)
  have hspell : ∀ dots : List String, (∀ m ∈ dots, m = ".") → ∀ ms n, (∀ m ∈ ms ++ [n], PlainName m) →
      ∃ names', Spelling w.root ("" ++ "/".intercalate (dots ++ (ms ++ [n]))) (ms ++ [n]) names' :=
    fun dots hdots ms n h => ⟨_, Spelling.dots_append hdots h (by simp) (.inr String.empty_append)⟩
  rw [makeDirectories, hempty, startsWith_intercalate hnames hne, pathNames_intercalate hnames hne, keptNames]
  by_cases hdot : names.head? = some "."
  · rw [if_pos hdot]
    exact makeDirectoriesFrom_spelled hroot (makeDirectoriesFrom_dot hroot) (hspell ["."] (by simp))
      (plain_of_mem_filter hnames) hclear
  · rw [if_neg hdot]
    exact makeDirectoriesFrom_spelled hroot rfl (hspell [] (by simp)) (plain_of_mem_filter hnames) hclear

namespace Spelling

variable {w : Workspace} {rootNames : List String} {path : String} {place names : List String}

/-- Making the directory a path spells makes the directories missing at its
place and above it, when no file is in the way. -/
theorem makeDirectories (hroot : CanonicalPath w.root rootNames) (hs : Spelling w.root path place names)
    (hclear : w.Clear place) :
    w.makeDirectories path = .ok { w with directories := w.directories ++ w.missing place } := by
  obtain rfl := hs.place_eq
  rcases hs.path_eq with rfl | ⟨hne, rfl⟩
  · exact makeDirectories_pathOf hroot hs.step hclear
  · exact makeDirectories_intercalate hroot hs.step hne hclear

/-- A plain name joined onto a spelled path spells the place one name further down. -/
theorem join (hroot : CanonicalPath w.root rootNames) (hs : Spelling w.root path place names) {n : String}
    (hn : PlainName n) : Spelling w.root (joinPath path n) (place ++ [n]) (names ++ [n]) where
  step := steps_append_plain hs.step hn
  place_eq := by
    rw [List.filter_append, hs.place_eq]
    simp [hn.ne_dot]
  last_ne_dot := by simpa using hn.ne_dot
  path_eq := by
    rcases hs.path_eq with rfl | ⟨hne, rfl⟩
    · exact .inl (joinPath_pathOf hroot hs.step hn)
    · exact .inr ⟨by simp, joinPath_intercalate hs.step hne hn⟩

/-- Making the directory above a spelled place, when its path names one, makes
the directories missing above the place. -/
theorem makeParent (hroot : CanonicalPath w.root rootNames) {ms : List String} {n : String}
    (hs : Spelling w.root path (ms ++ [n]) names) (hclear : w.Clear ms) :
    (parentPath? path).elim (.ok w) w.makeDirectories = .ok { w with directories := w.directories ++ w.missing ms } := by
  obtain ⟨pre, m, rfl, hpre, hm, hplace⟩ := hs.exists_last (by simp)
  obtain ⟨rfl, -⟩ := List.append_inj' hplace rfl
  have hplain := plain_of_mem_filter hpre
  rcases hs.path_eq with rfl | ⟨-, rfl⟩
  · have hmake := makeDirectories_pathOf hroot (fun k hk => .inl (hplain k hk))
      (by rwa [filter_ne_dot_of_plain hplain])
    rw [filter_ne_dot_of_plain hplain] at hmake
    rw [show w.root ++ absolutePath (pre ++ [m]) = w.pathOf (pre ++ [m]) from rfl, parentPath?_pathOf hroot hpre hm]
    exact hmake
  · rw [parentPath?_intercalate hpre hm]
    split
    · rename_i hkept
      have hnil : pre.filter (· ≠ ".") = [] := by rw [← filter_keptNames, hkept, List.filter_nil]
      rw [hnil]
      simp [missing]
    · rename_i hkept
      have hmake := makeDirectories_intercalate hroot (steps_keptNames hpre) hkept (by rwa [filter_keptNames])
      rw [filter_keptNames] at hmake
      exact hmake

end Spelling

end Workspace

end DenyPolicy
