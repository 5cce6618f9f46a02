import DenyPolicy.Text.Blank
import Mathlib.Data.List.DropRight
/-!
# Trimming and replacing characters

Trimming drops the blanks at the front of a text and then those at its back.
Seen on the characters it is `dropWhile` followed by `rdropWhile`, and the two
facts the checks of the engine rely on follow from that reading: trimming a
trimmed text changes nothing, and a text is blank exactly when trimming leaves
nothing of it.  Replacing a character writes a text in place of each of its
occurrences, which on the characters is a `flatMap`.
-/

namespace DenyPolicy

namespace Text

theorem toList_trim (s : String) :
    (trim s).toList = (s.toList.dropWhile isBlank).rdropWhile isBlank := by
  simp [trim, List.rdropWhile, String.toList_ofList]

/-- Dropping from the back of a list whose front was dropped leaves a front
that needs no dropping. -/
theorem dropWhile_rdropWhile_dropWhile {α : Type} (p : α → Bool) (l : List α) :
    ((l.dropWhile p).rdropWhile p).dropWhile p = (l.dropWhile p).rdropWhile p := by
  have hprefix := List.rdropWhile_prefix p (l.dropWhile p)
  cases hm : (l.dropWhile p).rdropWhile p with
  | nil => rfl
  | cons a rest =>
      rw [hm] at hprefix
      obtain ⟨tail, htail⟩ := hprefix
      have hhead : (l.dropWhile p).head? = some a := by simp [← htail]
      have hnot := List.head?_dropWhile_not p l
      rw [hhead] at hnot
      simp [hnot]

@[simp] theorem trim_trim (s : String) : trim (trim s) = trim s := by
  apply String.toList_inj.mp
  rw [toList_trim, toList_trim, dropWhile_rdropWhile_dropWhile, List.rdropWhile_idempotent]

theorem trim_eq_empty_iff (s : String) : trim s = "" ↔ isBlankText s = true := by
  rw [← String.toList_eq_nil_iff, toList_trim, List.rdropWhile_eq_nil_iff, isBlankText,
    List.all_eq_true]
  constructor
  · intro hblank
    cases hd : s.toList.dropWhile isBlank with
    | nil => exact List.dropWhile_eq_nil_iff.mp hd
    | cons a rest =>
        have hnot := List.head?_dropWhile_not isBlank s.toList
        rw [hd] at hnot
        have ha := hblank a (by rw [hd]; exact List.mem_cons_self)
        simp_all
  · intro hblank x hx
    exact hblank x ((List.dropWhile_suffix isBlank).subset hx)

theorem isEmpty_trim_of_not_blank {s : String} (h : isBlankText s = false) :
    (trim s).isEmpty = false := by
  rw [String.isEmpty_eq_false_iff, ne_eq, trim_eq_empty_iff, h]
  decide

@[simp] theorem isBlankText_trim (s : String) : isBlankText (trim s) = isBlankText s := by
  rw [Bool.eq_iff_iff, ← trim_eq_empty_iff, ← trim_eq_empty_iff, trim_trim]

/-! ## Replacing a character -/

theorem toList_replaceChar (s : String) (c : Char) (by_ : String) :
    (replaceChar s c by_).toList = s.toList.flatMap fun d => if d = c then by_.toList else [d] := by
  simp only [replaceChar, String.toList_join, List.map_map, List.flatMap]
  congr 1
  apply List.map_congr_left
  intro d _
  simp only [Function.comp_apply]
  split <;> simp

end Text

end DenyPolicy
