import NexusBackend.Library.Exceptions
import Mathlib.Tactic.SplitIfs

/-!
UTF-8: encoding of code points, and `bytes.decode("utf-8", errors="replace")`.

The decoder is a machine over bytes. A byte that cannot continue the character
that is open ends it as one replacement character and is read again as a first
byte. Bytes are numbers; none above 255 is part of a character.
-/
namespace Python
namespace Utf8

/-- A code point that is no surrogate. -/
def IsScalar (c : Nat) : Prop := c < 0xd800 ∨ (0xe000 ≤ c ∧ c < 0x110000)

instance (c : Nat) : Decidable (IsScalar c) :=
  inferInstanceAs (Decidable (_ ∨ _))

def encodeChar (c : Nat) : List Nat :=
  if c < 0x80 then [c]
  else if c < 0x800 then [0xc0 + c / 64, 0x80 + c % 64]
  else if c < 0x10000 then [0xe0 + c / 4096, 0x80 + c / 64 % 64, 0x80 + c % 64]
  else [0xf0 + c / 262144, 0x80 + c / 4096 % 64, 0x80 + c / 64 % 64, 0x80 + c % 64]

def encode (s : Text) : List Nat := s.flatMap encodeChar

/-- Between characters, or inside one: bytes still owed, the bits so far, and the
range of the next byte. -/
inductive State
  | ready
  | inside (owed bits low high : Nat)

def replacement : Nat := 0xfffd

/-- A byte where a character may begin. -/
def first (b : Nat) : Text × State :=
  if b < 0x80 then ([b], .ready)
  else if 0xc2 ≤ b ∧ b ≤ 0xdf then ([], .inside 1 (b - 0xc0) 0x80 0xbf)
  else if b = 0xe0 then ([], .inside 2 0 0xa0 0xbf)
  else if b = 0xed then ([], .inside 2 0xd 0x80 0x9f)
  else if 0xe1 ≤ b ∧ b ≤ 0xef then ([], .inside 2 (b - 0xe0) 0x80 0xbf)
  else if b = 0xf0 then ([], .inside 3 0 0x90 0xbf)
  else if b = 0xf4 then ([], .inside 3 4 0x80 0x8f)
  else if 0xf1 ≤ b ∧ b ≤ 0xf3 then ([], .inside 3 (b - 0xf0) 0x80 0xbf)
  else ([replacement], .ready)

def next (st : State) (b : Nat) : Text × State :=
  match st with
  | .ready => first b
  | .inside owed bits low high =>
      if low ≤ b ∧ b ≤ high then
        if owed ≤ 1 then ([64 * bits + (b - 0x80)], .ready)
        else ([], .inside (owed - 1) (64 * bits + (b - 0x80)) 0x80 0xbf)
      else (replacement :: (first b).1, (first b).2)

def decodeFrom : State → List Nat → Text
  | .ready, [] => []
  | .inside .., [] => [replacement]
  | st, b :: bs => (next st b).1 ++ decodeFrom (next st b).2 bs

/-- `bytes.decode("utf-8", errors="replace")`. -/
def decode (bytes : List Nat) : Text := decodeFrom .ready bytes

theorem decodeFrom_cons (st : State) (b : Nat) (bs : List Nat) :
    decodeFrom st (b :: bs) = (next st b).1 ++ decodeFrom (next st b).2 bs := by
  cases st <;> rfl

/-- A continuation byte that does not end the character. -/
theorem decodeFrom_inside_more {owed bits low high b : Nat} (bs : List Nat) (hlow : low ≤ b)
    (hhigh : b ≤ high) (howed : 1 < owed) :
    decodeFrom (.inside owed bits low high) (b :: bs) =
      decodeFrom (.inside (owed - 1) (64 * bits + (b - 0x80)) 0x80 0xbf) bs := by
  rw [decodeFrom_cons, next, if_pos ⟨hlow, hhigh⟩, if_neg (by omega), List.nil_append]

/-- The last continuation byte. -/
theorem decodeFrom_inside_last {bits low high b : Nat} (bs : List Nat) (hlow : low ≤ b)
    (hhigh : b ≤ high) :
    decodeFrom (.inside 1 bits low high) (b :: bs) =
      (64 * bits + (b - 0x80)) :: decodeFrom .ready bs := by
  rw [decodeFrom_cons, next, if_pos ⟨hlow, hhigh⟩, if_pos (by omega), List.singleton_append]

theorem decodeFrom_ready_inside {b : Nat} {st : State} (bs : List Nat)
    (h : first b = ([], st)) : decodeFrom .ready (b :: bs) = decodeFrom st bs := by
  rw [decodeFrom_cons, next, h, List.nil_append]

theorem first_two {c : Nat} (h1 : ¬ c < 0x80) (h2 : c < 0x800) :
    first (0xc0 + c / 64) = ([], .inside 1 (c / 64) 0x80 0xbf) := by
  rw [first, if_neg (by omega), if_pos (by omega), Nat.add_sub_cancel_left]

/-- The first of three bytes bounds the second one. -/
theorem first_three {c : Nat} (hc : IsScalar c) (h2 : ¬ c < 0x800) (h3 : c < 0x10000) :
    ∃ low high, first (0xe0 + c / 4096) = ([], .inside 2 (c / 4096) low high) ∧
      low ≤ 0x80 + c / 64 % 64 ∧ 0x80 + c / 64 % 64 ≤ high := by
  simp only [IsScalar] at hc
  by_cases he0 : c / 4096 = 0
  · refine ⟨0xa0, 0xbf, ?_, by omega, by omega⟩
    rw [he0]
    rfl
  by_cases hed : c / 4096 = 13
  · refine ⟨0x80, 0x9f, ?_, by omega, by omega⟩
    rw [hed]
    rfl
  refine ⟨0x80, 0xbf, ?_, by omega, by omega⟩
  rw [first, if_neg (by omega), if_neg (by omega), if_neg (by omega), if_neg (by omega),
    if_pos (by omega), Nat.add_sub_cancel_left]

/-- The first of four bytes bounds the second one. -/
theorem first_four {c : Nat} (hc : IsScalar c) (h3 : ¬ c < 0x10000) :
    ∃ low high, first (0xf0 + c / 262144) = ([], .inside 3 (c / 262144) low high) ∧
      low ≤ 0x80 + c / 4096 % 64 ∧ 0x80 + c / 4096 % 64 ≤ high := by
  simp only [IsScalar] at hc
  by_cases hf0 : c / 262144 = 0
  · refine ⟨0x90, 0xbf, ?_, by omega, by omega⟩
    rw [hf0]
    rfl
  by_cases hf4 : c / 262144 = 4
  · refine ⟨0x80, 0x8f, ?_, by omega, by omega⟩
    rw [hf4]
    rfl
  refine ⟨0x80, 0xbf, ?_, by omega, by omega⟩
  rw [first, if_neg (by omega), if_neg (by omega), if_neg (by omega), if_neg (by omega),
    if_neg (by omega), if_neg (by omega), if_neg (by omega), if_pos (by omega),
    Nat.add_sub_cancel_left]

/-- A character that is encoded is decoded again, whatever follows. -/
theorem decodeFrom_encodeChar {c : Nat} (hc : IsScalar c) (bs : List Nat) :
    decodeFrom .ready (encodeChar c ++ bs) = c :: decodeFrom .ready bs := by
  simp only [encodeChar]
  by_cases h1 : c < 0x80
  · rw [if_pos h1, List.singleton_append, decodeFrom_cons, next, first, if_pos h1,
      List.singleton_append]
  by_cases h2 : c < 0x800
  · have hval : 64 * (c / 64) + (0x80 + c % 64 - 0x80) = c := by omega
    rw [if_neg h1, if_pos h2, List.cons_append, decodeFrom_ready_inside _ (first_two h1 h2),
      List.singleton_append, decodeFrom_inside_last _ (by omega) (by omega), hval]
  by_cases h3 : c < 0x10000
  · obtain ⟨low, high, hf, hlow, hhigh⟩ := first_three hc h2 h3
    have hval : 64 * (64 * (c / 4096) + (0x80 + c / 64 % 64 - 0x80)) +
        (0x80 + c % 64 - 0x80) = c := by omega
    rw [if_neg h1, if_neg h2, if_pos h3, List.cons_append, decodeFrom_ready_inside _ hf,
      List.cons_append, decodeFrom_inside_more _ hlow hhigh (by omega), List.singleton_append,
      decodeFrom_inside_last _ (by omega) (by omega), hval]
  · obtain ⟨low, high, hf, hlow, hhigh⟩ := first_four hc h3
    have hval : 64 * (64 * (64 * (c / 262144) + (0x80 + c / 4096 % 64 - 0x80)) +
        (0x80 + c / 64 % 64 - 0x80)) + (0x80 + c % 64 - 0x80) = c := by omega
    rw [if_neg h1, if_neg h2, if_neg h3, List.cons_append, decodeFrom_ready_inside _ hf,
      List.cons_append, decodeFrom_inside_more _ hlow hhigh (by omega), List.cons_append,
      decodeFrom_inside_more _ (by omega) (by omega) (by omega), List.singleton_append,
      decodeFrom_inside_last _ (by omega) (by omega), hval]

theorem decode_encode_append {s : Text} (hs : ∀ c ∈ s, IsScalar c) (bs : List Nat) :
    decodeFrom .ready (encode s ++ bs) = s ++ decodeFrom .ready bs := by
  induction s with
  | nil => rfl
  | cons c s ih =>
      rw [List.forall_mem_cons] at hs
      rw [encode, List.flatMap_cons, List.append_assoc, decodeFrom_encodeChar hs.1,
        List.cons_append]
      exact congrArg (c :: ·) (ih hs.2)

/-- Decoding undoes encoding on every text without surrogates. -/
theorem decode_encode {s : Text} (hs : ∀ c ∈ s, IsScalar c) : decode (encode s) = s := by
  have h := decode_encode_append hs []
  simpa [decode, decodeFrom] using h

/-- The bytes are the encoding of some text. -/
def Valid (bytes : List Nat) : Prop := ∃ s, (∀ c ∈ s, IsScalar c) ∧ encode s = bytes

/-! ### What the decoder writes is free of surrogates -/

/-- The bits collected so far can only become a scalar value. -/
def StateSound : State → Prop
  | .ready => True
  | .inside owed bits low high => 0x80 ≤ low ∧ high ≤ 0xbf ∧
      (owed = 1 ∧ (bits < 0x360 ∨ 0x380 ≤ bits ∧ bits < 0x4400) ∨
        owed = 2 ∧ (bits = 0xd ∧ high ≤ 0x9f ∨ bits ≠ 0xd ∧ bits < 0x110) ∨
        owed = 3 ∧ (bits = 4 ∧ high ≤ 0x8f ∨ bits = 0 ∧ 0x90 ≤ low ∨ 1 ≤ bits ∧ bits < 4))

theorem sound_inside {owed bits low high : Nat} (h : StateSound (.inside owed bits low high)) :
    (∀ c ∈ ([] : Text), IsScalar c) ∧ StateSound (.inside owed bits low high) :=
  ⟨fun _ hc => absurd hc List.not_mem_nil, h⟩

theorem first_sound (b : Nat) : (∀ c ∈ (first b).1, IsScalar c) ∧ StateSound (first b).2 := by
  simp only [first]
  split_ifs with h1 h2 h3 h4 h5 h6 h7 h8
  · refine ⟨fun c hc => ?_, trivial⟩
    rw [List.mem_singleton.mp hc]
    simp only [IsScalar]
    omega
  all_goals try exact sound_inside ⟨by omega, by omega, by omega⟩
  refine ⟨fun c hc => ?_, trivial⟩
  rw [List.mem_singleton.mp hc]
  decide

theorem next_sound {st : State} (h : StateSound st) (b : Nat) :
    (∀ c ∈ (next st b).1, IsScalar c) ∧ StateSound (next st b).2 := by
  cases st with
  | ready => exact first_sound b
  | inside owed bits low high =>
      simp only [StateSound] at h
      unfold next
      dsimp only
      split
      · split
        · refine ⟨fun c hc => ?_, trivial⟩
          rw [List.mem_singleton.mp hc]
          unfold IsScalar
          omega
        · exact sound_inside ⟨by omega, by omega, by omega⟩
      · refine ⟨fun c hc => ?_, (first_sound b).2⟩
        rcases List.mem_cons.mp hc with rfl | hc
        · decide
        · exact (first_sound b).1 c hc

theorem decodeFrom_scalar (bs : List Nat) {st : State} (h : StateSound st) :
    ∀ c ∈ decodeFrom st bs, IsScalar c := by
  induction bs generalizing st with
  | nil =>
      cases st with
      | ready => exact fun c hc => absurd hc List.not_mem_nil
      | inside owed bits low high =>
          intro c hc
          rw [List.mem_singleton.mp hc]
          decide
  | cons b bs ih =>
      intro c hc
      rw [decodeFrom_cons] at hc
      rcases List.mem_append.mp hc with hc | hc
      · exact (next_sound h b).1 c hc
      · exact ih (next_sound h b).2 c hc

theorem decode_scalar (bytes : List Nat) : ∀ c ∈ decode bytes, IsScalar c :=
  decodeFrom_scalar bytes trivial

/-- Encoding undoes decoding exactly on the encodings of texts. -/
theorem encode_decode_iff (bytes : List Nat) : encode (decode bytes) = bytes ↔ Valid bytes := by
  constructor
  · exact fun h => ⟨decode bytes, decode_scalar bytes, h⟩
  · rintro ⟨s, hs, rfl⟩
    rw [decode_encode hs]

instance (bytes : List Nat) : Decidable (Valid bytes) :=
  decidable_of_iff _ (encode_decode_iff bytes)

end Utf8
end Python
