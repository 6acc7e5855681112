import AccessControl.Text.Blank
import Mathlib.Data.List.DropRight
import Mathlib.Tactic.SplitIfs

/-!
# Parts of a text

A text falls into parts at a mark, after the white space around it is gone. The white space ends
where the body begins, and no part holds the mark, so a text has its parts and no others.
-/

namespace AccessControl
namespace Text

variable {cs front body back : List Char} {mark : Char} {parts : List (List Char)}

/-! ## White space around a body -/

/-- Nothing but white space stands before and behind a body that neither begins nor ends with any.
The body of a text of white space alone is empty. -/
structure Surrounds (cs body : List Char) : Prop where
  exists_blanks : ∃ front back, cs = front ++ (body ++ back) ∧
    (∀ c ∈ front, isBlank c = true) ∧ ∀ c ∈ back, isBlank c = true
  first : ∀ c, body.head? = some c → isBlank c = false
  last : ∀ c, body.getLast? = some c → isBlank c = false

theorem isBlank_head?_dropWhile (cs : List Char) :
    ∀ c, (cs.dropWhile isBlank).head? = some c → isBlank c = false := by
  intro c hc
  have h := List.head?_dropWhile_not isBlank cs
  rwa [hc] at h

theorem dropWhile_append_eq (hfront : ∀ c ∈ front, isBlank c = true)
    (hfirst : ∀ c, cs.head? = some c → isBlank c = false) :
    (front ++ cs).dropWhile isBlank = cs := by
  rw [List.dropWhile_append_of_pos hfront]
  cases cs with
  | nil => rfl
  | cons c cs => exact List.dropWhile_cons_of_neg (by simp [hfirst c rfl])

/-- Trimming takes everything away that a prefix and a suffix of white space can account for. -/
theorem surrounds_trim (cs : List Char) : Surrounds cs (trim cs) where
  exists_blanks := by
    refine ⟨cs.takeWhile isBlank, (cs.dropWhile isBlank).rtakeWhile isBlank, ?_, ?_, ?_⟩
    · have hback : trim cs ++ (cs.dropWhile isBlank).rtakeWhile isBlank =
          cs.dropWhile isBlank := List.rdropWhile_append_rtakeWhile
      rw [hback, List.takeWhile_append_dropWhile]
    · intro c hc
      exact List.mem_takeWhile_imp hc
    · intro c hc
      exact List.mem_rtakeWhile_imp hc
  first := by
    intro c hc
    obtain ⟨rest, hrest⟩ := List.rdropWhile_prefix isBlank (cs.dropWhile isBlank)
    apply isBlank_head?_dropWhile cs
    rw [← hrest]
    exact List.mem_head?_append_of_mem_head? hc
  last := by
    intro c hc
    rw [trim, List.getLast?_reverse] at hc
    exact isBlank_head?_dropWhile _ c hc

theorem Surrounds.trim_eq (h : Surrounds cs body) : trim cs = body := by
  obtain ⟨front, back, rfl, hfront, hback⟩ := h.exists_blanks
  cases body with
  | nil =>
    rw [trim, List.dropWhile_append_of_pos hfront, List.nil_append,
      List.dropWhile_eq_nil_iff.mpr hback]
    rfl
  | cons c body =>
    have hfirst : ∀ d, (c :: body ++ back).head? = some d → isBlank d = false := h.first
    have hlast : ∀ d, (c :: body).reverse.head? = some d → isBlank d = false := by
      rw [List.head?_reverse]
      exact h.last
    rw [trim, dropWhile_append_eq hfront hfirst, List.reverse_append,
      dropWhile_append_eq (by simpa using hback) hlast, List.reverse_reverse]

/-- Trimming finds the body of a text, and there is no other. -/
theorem trim_eq_iff : trim cs = body ↔ Surrounds cs body := by
  constructor
  · rintro rfl
    exact surrounds_trim cs
  · exact Surrounds.trim_eq

/-! ## Parts at a mark -/

/-- At least one part, with a mark between any two that none of them holds. -/
structure JoinedBy (mark : Char) (body : List Char) (parts : List (List Char)) : Prop where
  eq_intercalate : body = [mark].intercalate parts
  ne_nil : parts ≠ []
  not_mem : ∀ part ∈ parts, mark ∉ part

theorem not_mem_of_mem_splitOn {part : List Char} (h : part ∈ body.splitOn mark) :
    mark ∉ part := by
  induction body generalizing part with
  | nil =>
    obtain rfl : part = [] := by simpa using h
    exact List.not_mem_nil
  | cons c body ih =>
    rw [List.splitOn_cons_eq_if_modifyHead] at h
    split_ifs at h with hc
    · rcases List.mem_cons.mp h with rfl | hrest
      · exact List.not_mem_nil
      · exact ih hrest
    · -- The character belongs to the first of the parts behind it.
      obtain ⟨first, rest, hsplit⟩ := List.exists_cons_of_ne_nil (List.splitOn_ne_nil mark body)
      rw [hsplit] at h ih
      rcases List.mem_cons.mp h with rfl | hrest
      · have hne : mark ≠ c := fun hmark => hc (beq_iff_eq.mpr hmark.symm)
        exact List.not_mem_cons_of_ne_of_not_mem hne (ih List.mem_cons_self)
      · exact ih (List.mem_cons_of_mem _ hrest)

theorem splitOn_eq_iff : body.splitOn mark = parts ↔ JoinedBy mark body parts := by
  constructor
  · rintro rfl
    exact ⟨(List.intercalate_splitOn mark).symm, List.splitOn_ne_nil mark body,
      fun part => not_mem_of_mem_splitOn⟩
  · rintro ⟨rfl, hne, hmark⟩
    exact List.splitOn_intercalate mark hmark hne

/-- A text falls into parts at a mark: those of the body in its white space. -/
def FallsInto (mark : Char) (cs : List Char) (parts : List (List Char)) : Prop :=
  ∃ body, Surrounds cs body ∧ JoinedBy mark body parts

theorem fallsInto_iff : FallsInto mark cs parts ↔ parts = (trim cs).splitOn mark := by
  simp only [FallsInto, ← trim_eq_iff, ← splitOn_eq_iff, exists_eq_left']
  exact eq_comm

end Text
end AccessControl
