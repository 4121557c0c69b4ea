import AdfMarkdown.Text.Space
import Mathlib.Data.List.TakeWhile

/-! # Trimmed texts

What trimming leaves of a text, and what it leaves alone.
-/

namespace AdfMarkdown.Text

variable {α : Type} {p : α → Bool} {s t : List α} {a : α}

theorem drop_length_takeWhile (p : α → Bool) (s : List α) :
    s.drop (s.takeWhile p).length = s.dropWhile p := by
  induction s with
  | nil => rfl
  | cons a s ih => by_cases h : p a = true <;> simp [h, ih]

theorem dropWhile_eq_self (h : ∀ a ∈ s.head?, p a = false) : s.dropWhile p = s := by
  cases s with
  | nil => rfl
  | cons a s => exact List.dropWhile_cons_of_neg (by simpa using h)

theorem trimRight_eq_self (h : ∀ a ∈ s.getLast?, p a = false) : trimRight p s = s := by
  rw [trimRight, dropWhile_eq_self, List.reverse_reverse]
  rwa [List.head?_reverse]

theorem trimRight_append (h : ∀ a ∈ t, p a = true) : trimRight p (s ++ t) = trimRight p s := by
  rw [trimRight, List.reverse_append, List.dropWhile_append_of_pos, trimRight]
  simpa using h

theorem length_trimRight_le (p : α → Bool) (s : List α) : (trimRight p s).length ≤ s.length := by
  rw [trimRight, List.length_reverse]
  exact (List.dropWhile_suffix p).length_le.trans_eq List.length_reverse

theorem mem_trimRight (h : a ∈ s) (ha : p a = false) : a ∈ trimRight p s := by
  rw [trimRight, List.mem_reverse]
  have hmem : a ∈ s.reverse.takeWhile p ++ s.reverse.dropWhile p := by
    rw [List.takeWhile_append_dropWhile]
    exact List.mem_reverse.mpr h
  rcases List.mem_append.mp hmem with h | h
  · rw [List.mem_takeWhile_imp h] at ha
    cases ha
  · exact h

theorem trimRight_cons (ha : p a = false) : trimRight p (a :: s) = a :: trimRight p s := by
  rw [trimRight, List.reverse_cons, List.dropWhile_append]
  split
  · next h =>
    rw [List.isEmpty_iff] at h
    simp [trimRight, h, ha]
  · rw [List.reverse_append, trimRight]
    rfl

theorem trim_eq_self {p : Char → Bool} {s : List Char} (hfirst : ∀ c ∈ s.head?, p c = false)
    (hlast : ∀ c ∈ s.getLast?, p c = false) : trim p s = s := by
  rw [trim, trimLeft, dropWhile_eq_self hfirst, trimRight_eq_self hlast]

end AdfMarkdown.Text
