import ChainCoverage.Assignment.LaunchQueue
import ChainCoverage.Proofs.Text.Unsigned

/-!
# The names of tasks

The name of a task is its network, the ends of its span and its number, with hyphens between
them.  A network may have hyphens and digits of its own, so a name is taken apart from its end:
no number has a hyphen, and what stands behind the last hyphen is a number each time.

Main results:

- `append_cons_inj_right`: a list is cut at its last separator in one way.
- `taskName_inj`: the name of a task determines everything it is made of.
-/

namespace ChainCoverage

/-- A list is cut at its last separator in one way. -/
theorem append_cons_inj_right {α : Type} {separator : α} {front back front' back' : List α}
    (hback : separator ∉ back) (hback' : separator ∉ back')
    (h : front ++ separator :: back = front' ++ separator :: back') :
    front = front' ∧ back = back' := by
  -- One front starts with the other one, and what is between them ends with a separator.
  rcases List.append_eq_append_iff.1 h with ⟨between, hfront, hrest⟩ | ⟨between, hfront, hrest⟩
  all_goals
    cases between with
    | nil =>
      rw [List.append_nil] at hfront
      exact ⟨by simp [hfront], by simpa [eq_comm] using hrest⟩
    | cons first between =>
      obtain ⟨rfl, rfl⟩ := List.cons.inj hrest
      exact absurd (List.mem_append_right _ List.mem_cons_self) (by assumption)

namespace Unsigned

/-- Words that are printed alike are the same. -/
theorem toDigits_word_inj {n m : UInt64}
    (h : Nat.toDigits 10 n.toNat = Nat.toDigits 10 m.toNat) : n = m := by
  have hread := parseWord_toDigits n
  rw [h, parseWord_toDigits] at hread
  exact (Except.ok.inj hread).symm

end Unsigned

/-- The characters of the name of a task. -/
theorem toList_taskName (request : Assignment) (number : UInt64) :
    (taskName request number).toList =
      ((request.network.toList ++ '-' :: Nat.toDigits 10 request.task.span.first.toNat) ++
        '-' :: Nat.toDigits 10 request.task.span.last.toNat) ++
          '-' :: Nat.toDigits 10 number.toNat := by
  have hprint : taskName request number =
      toString request.network ++ toString "-" ++ toString request.task.span.first ++
        toString "-" ++ toString request.task.span.last ++ toString "-" ++ toString number := rfl
  rw [hprint]
  simp only [String.toList_append, Unsigned.toList_toString, List.append_assoc]
  rfl

/-- The name of a task determines its network, the ends of its span and its number. -/
theorem taskName_inj {request other : Assignment} {number otherNumber : UInt64}
    (h : taskName request number = taskName other otherNumber) :
    request.network = other.network ∧ request.task.span = other.task.span ∧
      number = otherNumber := by
  have hchars := congrArg String.toList h
  rw [toList_taskName, toList_taskName] at hchars
  have hdigits := Unsigned.hyphen_notMem_toDigits
  obtain ⟨hchars, hnumber⟩ := append_cons_inj_right (hdigits _) (hdigits _) hchars
  obtain ⟨hchars, hlast⟩ := append_cons_inj_right (hdigits _) (hdigits _) hchars
  obtain ⟨hnetwork, hfirst⟩ := append_cons_inj_right (hdigits _) (hdigits _) hchars
  have hspan : request.task.span = other.task.span := by
    calc request.task.span
        = ⟨request.task.span.first, request.task.span.last⟩ := rfl
      _ = ⟨other.task.span.first, other.task.span.last⟩ := by
        rw [Unsigned.toDigits_word_inj hfirst, Unsigned.toDigits_word_inj hlast]
  exact ⟨String.toList_injective hnetwork, hspan, Unsigned.toDigits_word_inj hnumber⟩

end ChainCoverage
