import Mathlib

/-!
# The latest event since a reset

A scan over a log that remembers the latest entry it is to keep and forgets it
at every entry that resets it.
-/

namespace EventLog

variable {α : Type} (reset keep : α → Bool)

def latestSince (log : List α) : Option α :=
  log.foldl (fun latest entry =>
    if reset entry then none else if keep entry then some entry else latest) none

theorem latestSince_concat (log : List α) (entry : α) :
    latestSince reset keep (log ++ [entry]) =
      if reset entry then none
      else if keep entry then some entry
      else latestSince reset keep log := by
  simp [latestSince]

theorem latestSince_append_quiet (log : List α)
    (hquiet : ∀ entry ∈ after, reset entry = false ∧ keep entry = false) :
    latestSince reset keep (log ++ after) = latestSince reset keep log := by
  induction after using List.reverseRecOn with
  | nil => rw [List.append_nil]
  | append_singleton after last ih =>
    obtain ⟨hreset, hkeep⟩ := hquiet last (by simp)
    rw [← List.append_assoc, latestSince_concat, if_neg (by simp [hreset]),
      if_neg (by simp [hkeep]), ih fun entry hentry => hquiet entry (by simp [hentry])]

/-- The remembered entry is the last one to keep, with no reset after it. -/
theorem latestSince_eq_some : latestSince reset keep log = some entry ↔
      ∃ before after, log = before ++ entry :: after ∧ keep entry = true ∧ reset entry = false ∧
        ∀ other ∈ after, reset other = false ∧ keep other = false := by
  constructor
  · intro h
    induction log using List.reverseRecOn with
    | nil => cases h
    | append_singleton log last ih =>
      rw [latestSince_concat] at h
      split at h
      · cases h
      · rename_i hreset
        split at h
        · rename_i hkeep
          cases h
          exact ⟨log, [], rfl, hkeep, by simpa using hreset, by simp⟩
        · rename_i hkeep
          obtain ⟨before, after, rfl, hentry, hfresh, hafter⟩ := ih h
          refine ⟨before, after ++ [last], by simp, hentry, hfresh, fun other hother => ?_⟩
          rcases List.mem_append.mp hother with hother | hother
          · exact hafter other hother
          · rw [List.mem_singleton.mp hother]
            exact ⟨by simpa using hreset, by simpa using hkeep⟩
  · rintro ⟨before, after, rfl, hentry, hfresh, hafter⟩
    rw [List.append_cons, latestSince_append_quiet reset keep _ hafter, latestSince_concat,
      if_neg (by simp [hfresh]), if_pos hentry]

end EventLog
