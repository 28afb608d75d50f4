import NexusBackend.Library.Text

/-!
`str.lower`. What a code point lowers to, and which ones are cased or ignored next to a letter, are
tables of the interpreter and parameters here; every code point lowers to some text.
-/
namespace Python

structure CaseTable where
  toLower : Nat → Text
  cased : Nat → Bool
  ignorable : Nat → Bool
  toLower_ne : ∀ c, toLower c ≠ []

namespace CaseTable

variable (t : CaseTable)

/-- A capital sigma ends a word: there is a cased letter before it and none after it. -/
def isFinalSigma (before after : Text) : Bool :=
  (before.dropWhile t.ignorable).head?.any t.cased &&
    !(after.dropWhile t.ignorable).head?.any t.cased

/-- One code point between those before it, in reverse, and those after it. -/
def lowerChar (before : Text) (c : Nat) (after : Text) : Text :=
  if c = 0x3a3 then [if t.isFinalSigma before after then 0x3c2 else 0x3c3] else t.toLower c

def lowerFrom : Text → Text → Text
  | _, [] => []
  | before, c :: after => t.lowerChar before c after ++ lowerFrom (c :: before) after

/-- `s.lower()`. -/
def lower (s : Text) : Text := t.lowerFrom [] s

theorem lower_eq_nil_iff (s : Text) : t.lower s = [] ↔ s = [] := by
  cases s with
  | nil => exact iff_of_true rfl rfl
  | cons c s =>
      refine iff_of_false ?_ nofun
      rw [lower, lowerFrom, List.append_eq_nil_iff, lowerChar]
      rintro ⟨hchar, -⟩
      split at hchar
      · cases hchar
      · exact t.toLower_ne c hchar

/-- A lowered text is made of what its code points lower to, and of small sigmas. -/
theorem mem_lower {s : Text} {d : Nat} (h : d ∈ t.lower s) :
    (∃ c ∈ s, d ∈ t.toLower c) ∨ d = 0x3c2 ∨ d = 0x3c3 := by
  rw [lower] at h
  generalize [] = before at h
  induction s generalizing before with
  | nil => cases h
  | cons c s ih =>
      rw [lowerFrom, List.mem_append] at h
      rcases h with h | h
      · rw [lowerChar] at h
        split at h
        · rw [List.mem_singleton] at h
          split at h
          · exact .inr (.inl h)
          · exact .inr (.inr h)
        · exact .inl ⟨c, List.mem_cons_self, h⟩
      · refine (ih _ h).imp_left ?_
        rintro ⟨c', hc', hd⟩
        exact ⟨c', List.mem_cons_of_mem _ hc', hd⟩

/-- The table within ASCII. -/
def ascii : CaseTable where
  toLower c := if 65 ≤ c ∧ c ≤ 90 then [c + 32] else [c]
  cased c := (65 ≤ c && c ≤ 90) || (97 ≤ c && c ≤ 122)
  ignorable c := c ∈ [39, 46, 58, 94, 96]
  toLower_ne c := by
    split
    · simp
    · simp

end CaseTable
end Python
