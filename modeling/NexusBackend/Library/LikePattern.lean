import Mathlib.Data.List.Infix

/-!
`LIKE` patterns over any alphabet: a sign for any text, a sign for any one character, and a sign
that takes the meaning from the character after it.

A text that holds none of the signs stands for itself in a pattern. One that holds any does not:
with the sign for any text after it, it matches a text that does not begin with it.
-/

structure Wildcards (α : Type*) where
  many : α
  one : α
  escape : α
  many_ne_one : many ≠ one
  many_ne_escape : many ≠ escape
  one_ne_escape : one ≠ escape

namespace Wildcards

inductive Token (α : Type*)
  | many
  | one
  | literal (c : α)

variable {α : Type*} (w : Wildcards α)

/-- The character has a meaning of its own. -/
def IsSign (c : α) : Prop := c = w.many ∨ c = w.one ∨ c = w.escape

/-- The text means itself. -/
def IsPlain (s : List α) : Prop := ∀ c ∈ s, ¬ w.IsSign c

theorem not_isSign {c : α} (hmany : c ≠ w.many) (hone : c ≠ w.one) (hescape : c ≠ w.escape) :
    ¬ w.IsSign c := by
  rintro (h | h | h)
  · exact hmany h
  · exact hone h
  · exact hescape h

variable [DecidableEq α]

instance (c : α) : Decidable (w.IsSign c) := inferInstanceAs (Decidable (_ ∨ _ ∨ _))

instance (s : List α) : Decidable (w.IsPlain s) := inferInstanceAs (Decidable (∀ c ∈ s, _))

/-- None where nothing comes after the escape. -/
def tokens : List α → Option (List (Token α))
  | [] => some []
  | c :: p =>
      if c = w.many then (tokens p).map (.many :: ·)
      else if c = w.one then (tokens p).map (.one :: ·)
      else if c = w.escape then
        match p with
        | [] => none
        | d :: p => (tokens p).map (.literal d :: ·)
      else (tokens p).map (.literal c :: ·)

def accepts : List (Token α) → List α → Bool
  | [], s => s.isEmpty
  | .many :: p, s => s.tails.any (accepts p)
  | .one :: p, s => s.tail?.any (accepts p)
  | .literal c :: p, s => s.head? = some c && accepts p s.tail

/-- `s LIKE p`, where the pattern has tokens. -/
def like (s p : List α) : Bool := (w.tokens p).any fun ts => accepts ts s

/-! ### One sign or character at a time -/

theorem like_nil_nil : w.like [] [] = true := rfl

theorem like_many_iff {s p : List α} :
    w.like s (w.many :: p) ↔ ∃ rest, rest <:+ s ∧ w.like rest p := by
  have htokens : w.tokens (w.many :: p) = (w.tokens p).map (.many :: ·) := by
    rw [tokens.eq_def]
    exact if_pos rfl
  rw [like, htokens, Option.any_map]
  cases h : w.tokens p with
  | none => simp [like, h]
  | some ts => simp [like, h, accepts]

theorem like_one_cons (d : α) (s p : List α) :
    w.like (d :: s) (w.one :: p) = w.like s p := by
  have htokens : w.tokens (w.one :: p) = (w.tokens p).map (.one :: ·) := by
    rw [tokens.eq_def]
    dsimp only
    rw [if_neg w.many_ne_one.symm, if_pos rfl]
  rw [like, htokens, Option.any_map]
  rfl

theorem like_literal {c : α} {p q : List α}
    (h : w.tokens p = (w.tokens q).map (.literal c :: ·)) {s : List α} :
    w.like s p ↔ ∃ rest, s = c :: rest ∧ w.like rest q := by
  rw [like, h, Option.any_map]
  cases hq : w.tokens q with
  | none => simp [like, hq]
  | some ts =>
      cases s with
      | nil => simp [accepts]
      | cons d s => simp [accepts, like, hq, and_comm]

theorem like_escape_iff {d : α} {s p : List α} :
    w.like s (w.escape :: d :: p) ↔ ∃ rest, s = d :: rest ∧ w.like rest p := by
  apply w.like_literal
  rw [tokens.eq_def]
  dsimp only
  rw [if_neg w.many_ne_escape.symm, if_neg w.one_ne_escape.symm, if_pos rfl]

theorem like_plain_iff {c : α} (h : ¬ w.IsSign c) {s p : List α} :
    w.like s (c :: p) ↔ ∃ rest, s = c :: rest ∧ w.like rest p := by
  apply w.like_literal
  rw [IsSign, not_or, not_or] at h
  rw [tokens.eq_def]
  dsimp only
  rw [if_neg h.1, if_neg h.2.1, if_neg h.2.2]

theorem like_only_many (s : List α) : w.like s [w.many] :=
  w.like_many_iff.mpr ⟨[], List.nil_suffix, w.like_nil_nil⟩

/-! ### Texts without signs -/

/-- `LIKE 't%'`. -/
theorem like_prefix_iff {t : List α} (h : w.IsPlain t) {s : List α} :
    w.like s (t ++ [w.many]) ↔ t <+: s := by
  induction t generalizing s with
  | nil => exact iff_of_true (w.like_only_many s) List.nil_prefix
  | cons c t ih =>
      obtain ⟨hc, ht⟩ := List.forall_mem_cons.mp h
      rw [List.cons_append, w.like_plain_iff hc]
      simp only [ih ht]
      exact List.cons_prefix_iff.symm

/-- `LIKE '%t%'`. -/
theorem like_infix_iff {t : List α} (h : w.IsPlain t) {s : List α} :
    w.like s (w.many :: (t ++ [w.many])) ↔ t <:+: s := by
  simp only [w.like_many_iff, w.like_prefix_iff h]
  rw [List.infix_iff_prefix_suffix]
  simp only [and_comm]

/-! ### Texts with signs -/

/-- A short text that `t%` matches: nothing for any text, and for any one character the sign
that stands for any text. -/
def leastMatch : List α → List α
  | [] => []
  | c :: t =>
      if c = w.many then leastMatch t
      else if c = w.one then w.many :: leastMatch t
      else if c = w.escape then
        match t with
        | [] => [w.many]
        | d :: t => d :: leastMatch t
      else c :: leastMatch t

theorem like_leastMatch (t : List α) : w.like (w.leastMatch t) (t ++ [w.many]) := by
  fun_induction w.leastMatch t with
  | case1 => exact w.like_only_many []
  | case2 t ih => exact w.like_many_iff.mpr ⟨_, List.suffix_rfl, ih⟩
  | case3 t _ ih =>
      rw [List.cons_append, w.like_one_cons]
      exact ih
  | case4 => exact w.like_escape_iff.mpr ⟨[], rfl, w.like_nil_nil⟩
  | case5 d t _ _ ih => exact w.like_escape_iff.mpr ⟨_, rfl, ih⟩
  | case6 c t hmany hone hescape ih =>
      exact (w.like_plain_iff (w.not_isSign hmany hone hescape)).mpr ⟨_, rfl, ih⟩

/-- With the sign for any text at its end a pattern has tokens. -/
theorem tokens_isSome (t : List α) : (w.tokens (t ++ [w.many])).isSome := by
  have hlike := w.like_leastMatch t
  rw [like, Option.any_eq_true] at hlike
  obtain ⟨ts, hts, -⟩ := hlike
  rw [hts]
  rfl

theorem length_leastMatch_le (t : List α) : (w.leastMatch t).length ≤ t.length := by
  fun_induction w.leastMatch t with
  | case1 => exact Nat.le_refl 0
  | case2 t ih => exact Nat.le_succ_of_le ih
  | case3 t _ ih => exact Nat.succ_le_succ ih
  | case4 => exact Nat.le_refl 1
  | case5 d t _ _ ih => exact Nat.le_succ_of_le (Nat.succ_le_succ ih)
  | case6 c t _ _ _ ih => exact Nat.succ_le_succ ih

theorem mem_leastMatch {t : List α} {c : α} (h : c ∈ w.leastMatch t) : c ∈ t ∨ c = w.many := by
  fun_induction w.leastMatch t with
  | case1 => cases h
  | case2 t ih => exact (ih h).imp_left (List.mem_cons_of_mem _)
  | case3 t _ ih =>
      rcases List.mem_cons.mp h with rfl | h
      · exact .inr rfl
      · exact (ih h).imp_left (List.mem_cons_of_mem _)
  | case4 => exact .inr (List.mem_singleton.mp h)
  | case5 d t _ _ ih =>
      rcases List.mem_cons.mp h with rfl | h
      · exact .inl (List.mem_cons_of_mem _ List.mem_cons_self)
      · exact (ih h).imp_left fun h => List.mem_cons_of_mem _ (List.mem_cons_of_mem _ h)
  | case6 d t _ _ _ ih =>
      rcases List.mem_cons.mp h with rfl | h
      · exact .inl List.mem_cons_self
      · exact (ih h).imp_left (List.mem_cons_of_mem _)

/-- It begins with `t` only where no sign is in `t`: else it is shorter, or differs from `t` at a
sign for one character or at a last escape. -/
theorem isPlain_of_prefix {t : List α} (h : t <+: w.leastMatch t) : w.IsPlain t := by
  have hlength := h.length_le
  fun_induction w.leastMatch t with
  | case1 => exact nofun
  | case2 t ih =>
      have hrest := w.length_leastMatch_le t
      rw [List.length_cons] at hlength
      omega
  | case3 t _ ih => exact absurd (List.cons_prefix_cons.mp h).1.symm w.many_ne_one
  | case4 => exact absurd (List.cons_prefix_cons.mp h).1.symm w.many_ne_escape
  | case5 d t _ _ ih =>
      have hrest := w.length_leastMatch_le t
      rw [List.length_cons, List.length_cons, List.length_cons] at hlength
      omega
  | case6 c t hmany hone hescape ih =>
      have hrest := (List.cons_prefix_cons.mp h).2
      exact List.forall_mem_cons.mpr ⟨w.not_isSign hmany hone hescape, ih hrest hrest.length_le⟩

end Wildcards
