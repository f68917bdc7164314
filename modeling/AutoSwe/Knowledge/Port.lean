import AutoSwe.Domain.Values

/-!
# Recalled context

`render_context` takes memories in order while their estimated tokens fit the
budget. The estimate is made for each block alone, so the blank lines between the
blocks are not charged: the text may be estimated above the budget, by one token
for every two memories.
-/

namespace AutoSwe.Knowledge

open List

structure RetrievedMemory where
  memoryId : UUID
  revisionId : String
  text : String
  sourceId : String
  evidenceIds : List String

structure MemoryContext where
  memories : List RetrievedMemory
  rendered : String
  tokensUsed : Nat

def block (memory : RetrievedMemory) : String :=
  "Memory: " ++ memory.memoryId.str ++ "\nRevision: " ++ memory.revisionId ++ "\nSource: " ++
    memory.sourceId ++ "\nEvidence: " ++ ", ".intercalate memory.evidenceIds ++ "\n" ++ memory.text

def estimate (text : String) : Nat := (text.length + 3) / 4

structure Packing where
  blocks : List String := []
  accepted : List RetrievedMemory := []
  tokens : Nat := 0

/-- One round of the loop over the memories. -/
def pack (budgetTokens : Nat) (s : Packing) (memory : RetrievedMemory) : Packing :=
  let estimated := max 1 (estimate (block memory))
  if s.tokens + estimated > budgetTokens then s
  else ⟨s.blocks ++ [block memory], s.accepted ++ [memory], s.tokens + estimated⟩

def renderContext (memories : List RetrievedMemory) (budgetTokens : Nat) : MemoryContext :=
  let s := memories.foldl (pack budgetTokens) {}
  ⟨s.accepted, "\n\n".intercalate s.blocks, s.tokens⟩

structure Packed (budget : Nat) (seen : List RetrievedMemory) (s : Packing) : Prop where
  sublist : s.accepted.Sublist seen
  within : s.tokens ≤ budget
  paired : s.blocks.length = s.accepted.length
  charged : (s.blocks.map String.length).sum ≤ 4 * s.tokens

theorem Packed.pack {s : Packing} (h : Packed budget seen s) (memory : RetrievedMemory) :
    Packed budget (seen ++ [memory]) (pack budget s memory) := by
  rw [Knowledge.pack]
  split
  · exact ⟨h.sublist.trans (sublist_append_left _ _), h.within, h.paired, h.charged⟩
  · refine ⟨h.sublist.append_right _, by grind, by simp [h.paired], ?_⟩
    have hcharged := h.charged
    simp only [map_append, sum_append, map_singleton, sum_singleton, estimate]
    omega

theorem Packed.foldl {s : Packing} (h : Packed budget seen s) (memories : List RetrievedMemory) :
    Packed budget (seen ++ memories) (memories.foldl (Knowledge.pack budget) s) := by
  induction memories generalizing s seen with
  | nil => simpa using h
  | cons memory memories ih => simpa using ih (h.pack memory)

theorem length_intercalate : ∀ blocks : List String,
    ("\n\n".intercalate blocks).length = (blocks.map String.length).sum + 2 * (blocks.length - 1)
  | [] => by simp
  | [a] => by simp
  | a :: b :: blocks => by
    have hsep : "\n\n".length = 2 := rfl
    simp [String.intercalate_cons_cons, length_intercalate (b :: blocks), hsep]
    omega

/-- The text is estimated at no more than the budget and half the number of memories. -/
theorem renderContext_bounded (memories : List RetrievedMemory) (budget : Nat) :
    (renderContext memories budget).memories.Sublist memories ∧
      (renderContext memories budget).tokensUsed ≤ budget ∧
      estimate (renderContext memories budget).rendered ≤
        budget + (renderContext memories budget).memories.length / 2 := by
  have h : Packed budget [] {} := ⟨.slnil, Nat.zero_le _, rfl, by simp⟩
  obtain ⟨hsub, hwithin, hpaired, hcharged⟩ := h.foldl memories
  refine ⟨hsub, hwithin, ?_⟩
  simp only [renderContext, estimate, length_intercalate]
  omega

/-- Two blocks of eighty characters use a budget of forty tokens, and make 162 characters. -/
theorem renderContext_over_budget : ∃ memories : List RetrievedMemory,
    (renderContext memories 40).tokensUsed = 40 ∧
      estimate (renderContext memories 40).rendered = 41 :=
  let memory : RetrievedMemory := ⟨⟨0⟩, "1", "a", "s", ["e"]⟩
  ⟨[memory, memory], by decide +kernel⟩

end AutoSwe.Knowledge
