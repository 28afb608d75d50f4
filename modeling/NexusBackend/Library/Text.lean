import NexusBackend.Library.Exceptions
import Mathlib.Data.List.DropRight
import Mathlib.Data.Nat.Digits.Lemmas
import Mathlib.Tactic.Ring

/-!
The operations of `str` and the integer literals of `int(...)`.

White space and decimal digits are those of the Unicode database the
interpreter ships, not of ASCII: `int("１２")` is 12 and `"\u3000x".strip()` is
`"x"`. An integer literal over 4300 digits is refused, as `int` does by default.
-/
namespace Python

/-- `str.isspace` of a one-character string. -/
def isSpace (c : Nat) : Bool :=
  (9 ≤ c && c ≤ 13) || (28 ≤ c && c ≤ 32) || c = 133 || c = 160 || c = 5760 ||
    (8192 ≤ c && c ≤ 8202) || c = 8232 || c = 8233 || c = 8239 || c = 8287 || c = 12288

def lstrip (s : Text) : Text := s.dropWhile isSpace

def strip (s : Text) : Text := (lstrip (lstrip s).reverse).reverse

def rstrip (s : Text) : Text := (lstrip s.reverse).reverse

def startsWith (s pre : Text) : Bool := pre.isPrefixOf s

def endsWith (s post : Text) : Bool := post.isSuffixOf s

/-- `s.split(sep, n)`: at most `n` cuts, the rest of the text in the last part. -/
def splitMax (sep : Nat) : Nat → Text → List Text
  | _, [] => [[]]
  | 0, s => [s]
  | n + 1, c :: s =>
      if c = sep then [] :: splitMax sep n s
      else (splitMax sep (n + 1) s).modifyHead (c :: ·)

/-- `s.split(sep)`. -/
def splitAll (sep : Nat) (s : Text) : List Text := splitMax sep s.length s

/-- `sep.join(parts)`. -/
def join (sep : Nat) : List Text → Text
  | [] => []
  | [part] => part
  | part :: parts => part ++ sep :: join sep parts

/-- `s.split()`: the runs of characters between white space. -/
def words (s : Text) : List Text := (s.splitOnP isSpace).filter (· ≠ [])

/-- `lower` on the ASCII letters. No other character lowers to an ASCII letter
of the keywords the callers compare with. -/
def asciiLower (s : Text) : Text :=
  s.map fun c => if 65 ≤ c ∧ c ≤ 90 then c + 32 else c

/-- Code points of the digit zero in each block of decimal digits. -/
def digitZeros : List Nat :=
  [0x30, 0x660, 0x6f0, 0x7c0, 0x966, 0x9e6, 0xa66, 0xae6, 0xb66, 0xbe6, 0xc66, 0xce6, 0xd66,
   0xde6, 0xe50, 0xed0, 0xf20, 0x1040, 0x1090, 0x17e0, 0x1810, 0x1946, 0x19d0, 0x1a80, 0x1a90,
   0x1b50, 0x1bb0, 0x1c40, 0x1c50, 0xa620, 0xa8d0, 0xa900, 0xa9d0, 0xa9f0, 0xaa50, 0xabf0,
   0xff10, 0x104a0, 0x10d30, 0x11066, 0x110f0, 0x11136, 0x111d0, 0x112f0, 0x11450, 0x114d0,
   0x11650, 0x116c0, 0x11730, 0x118e0, 0x11950, 0x11c50, 0x11d50, 0x11da0, 0x16a60, 0x16ac0,
   0x16b50, 0x1d7ce, 0x1d7d8, 0x1d7e2, 0x1d7ec, 0x1d7f6, 0x1e140, 0x1e2f0, 0x1e950, 0x1fbf0]

/-- `unicodedata.decimal`, as far as the numeric constructors use it. -/
def decimalDigit? (c : Nat) : Option Nat :=
  (digitZeros.find? fun z => z ≤ c ∧ c < z + 10).map (c - ·)

/-- The decimal digits of a natural number, most significant first. -/
def natDigits (n : Nat) : List Nat := if n = 0 then [0] else (Nat.digits 10 n).reverse

/-- Digits as ASCII text. -/
def digitText (ds : List Nat) : Text := ds.map (48 + ·)

/-- The decimal text of a natural number. -/
def natText (n : Nat) : Text := digitText (natDigits n)

/-- `str` of an integer. -/
def intText (n : Int) : Text :=
  if n < 0 then 45 :: natText n.natAbs else natText n.natAbs

/-- The number with the given digits, most significant first. -/
def ofDigits (ds : List Nat) : Nat := ds.foldl (fun n d => 10 * n + d) 0

/-- White space that `int` and `float` trim: the separators 28 to 31 are not in it. -/
def isNumberSpace (c : Nat) : Bool := isSpace c && !(28 ≤ c && c ≤ 31)

def stripNumber (s : Text) : Text :=
  (((s.dropWhile isNumberSpace).reverse).dropWhile isNumberSpace).reverse

/-- Digits with single underscores between them; the flag says that a digit
came just before. -/
def intDigits? : Bool → Text → Option (List Nat)
  | afterDigit, [] => if afterDigit then some [] else none
  | afterDigit, c :: s =>
      if c = 95 then if afterDigit then intDigits? false s else none
      else (decimalDigit? c).bind fun d => (intDigits? true s).map (d :: ·)

/-- A leading sign, and whether it was a minus. -/
def takeSign : Text → Bool × Text
  | 45 :: s => (true, s)
  | 43 :: s => (false, s)
  | s => (false, s)

def maxIntDigits : Nat := 4300

/-- `str(n)`, which refuses as many digits as `int` does. -/
def intStr (n : Int) : Except Exn Text :=
  if (natDigits n.natAbs).length ≤ maxIntDigits then .ok (intText n) else raise .valueError

/-- `int(s)` for a string: the value, or nothing where it raises `ValueError`. -/
def intOfText? (s : Text) : Option Int :=
  let (negative, body) := takeSign (stripNumber s)
  (intDigits? false body).bind fun ds =>
    if ds.length ≤ maxIntDigits then
      some (if negative then -(ofDigits ds : Int) else ofDigits ds)
    else none

def intOfText (s : Text) : Except Exn Int :=
  match intOfText? s with
  | some n => .ok n
  | none => raise .valueError

theorem intOfText_ends (s : Text) :
    Ends (fun _ => True) (fun e => e.kind = .valueError) (intOfText s) := by
  simp only [intOfText]
  split
  · exact ends_ok trivial
  · exact ends_error rfl

/-! ### White space around a text -/

theorem strip_eq (s : Text) : strip s = rstrip (lstrip s) := rfl

theorem strip_sublist (s : Text) : (strip s).Sublist s := by
  have hlstrip (s : Text) : (lstrip s).Sublist s := List.dropWhile_sublist _
  rw [strip]
  refine (List.reverse_sublist.mpr (hlstrip _)).trans ?_
  rw [List.reverse_reverse]
  exact hlstrip s

/-- A text without white space at its ends. -/
def IsTrimmed (s : Text) : Prop :=
  (∀ c ∈ s.head?, isSpace c = false) ∧ ∀ c ∈ s.getLast?, isSpace c = false

def IsBlank (s : Text) : Prop := ∀ c ∈ s, isSpace c = true

theorem lstrip_blank {s : Text} (h : IsBlank s) : lstrip s = [] :=
  List.dropWhile_eq_nil_iff.mpr h

theorem lstrip_lstrip (s : Text) : lstrip (lstrip s) = lstrip s :=
  List.dropWhile_idempotent _ _

theorem lstrip_of_head {s : Text} (h : ∀ c ∈ s.head?, isSpace c = false) : lstrip s = s := by
  cases s with
  | nil => rfl
  | cons c s => exact List.dropWhile_cons_of_neg (by simpa using h c rfl)

theorem head_lstrip (s : Text) : ∀ c ∈ (lstrip s).head?, isSpace c = false := by
  intro c hc
  have h := List.head?_dropWhile_not isSpace s
  rw [lstrip] at hc
  rw [Option.mem_def.mp hc] at h
  exact h

theorem rstrip_prefix (s : Text) : rstrip s <+: s := by
  have h := List.reverse_prefix.mpr (List.dropWhile_suffix (l := s.reverse) isSpace)
  rwa [List.reverse_reverse] at h

theorem isTrimmed_strip (s : Text) : IsTrimmed (strip s) := by
  constructor
  · intro c hc
    obtain ⟨behind, hcut⟩ := rstrip_prefix (lstrip s)
    refine head_lstrip s c ?_
    rw [← hcut, List.head?_append, ← strip_eq, Option.mem_def.mp hc]
    rfl
  · intro c hc
    rw [strip, List.getLast?_reverse] at hc
    exact head_lstrip _ c hc

theorem lstrip_append {s t : Text} (h : ∀ c ∈ t.head?, isSpace c = false) :
    lstrip (s ++ t) = lstrip s ++ t := by
  have ht := lstrip_of_head h
  rw [lstrip] at ht ⊢
  rw [List.dropWhile_append, ht, lstrip]
  cases s.dropWhile isSpace <;> rfl

theorem rstrip_of_last {s : Text} (h : ∀ c ∈ s.getLast?, isSpace c = false) : rstrip s = s := by
  rw [rstrip, lstrip_of_head, List.reverse_reverse]
  rwa [List.head?_reverse]

theorem rstrip_append {s pad : Text} (hs : ∀ c ∈ s.getLast?, isSpace c = false)
    (h : IsBlank pad) : rstrip (s ++ pad) = s := by
  have hpad : lstrip pad.reverse = [] :=
    lstrip_blank fun c hc => h c (List.mem_reverse.mp hc)
  rw [rstrip, List.reverse_append, lstrip_append, hpad, List.nil_append, List.reverse_reverse]
  rwa [List.head?_reverse]

/-- White space around a text is removed, and what else is before it is kept. -/
theorem IsTrimmed.strip_append {s before behind : Text} (hs : IsTrimmed s) (hne : s ≠ [])
    (h : IsBlank behind) : strip (before ++ s ++ behind) = lstrip before ++ s := by
  have hhead : ∀ c ∈ (s ++ behind).head?, isSpace c = false := by
    rw [List.head?_append_of_ne_nil _ hne]
    exact hs.1
  rw [strip_eq, List.append_assoc, lstrip_append hhead, ← List.append_assoc, rstrip_append _ h]
  rw [List.getLast?_append_of_ne_nil _ hne]
  exact hs.2

/-- Cutting a text brings in no other characters. -/
theorem mem_of_splitMax {sep n : Nat} {s part : Text} (h : part ∈ splitMax sep n s) :
    ∀ c ∈ part, c ∈ s := by
  induction s generalizing n part with
  | nil =>
      rw [splitMax, List.mem_singleton] at h
      rw [h]
      exact fun _ hc => hc
  | cons a s ih =>
      cases n with
      | zero =>
          change part ∈ [a :: s] at h
          rw [List.mem_singleton.mp h]
          exact fun _ hc => hc
      | succ n =>
          rw [splitMax] at h
          intro c hc
          split at h
          · obtain rfl | h := List.mem_cons.mp h
            · cases hc
            · exact List.mem_cons_of_mem _ (ih h c hc)
          · cases hparts : splitMax sep (n + 1) s with
            | nil =>
                rw [hparts] at h
                cases h
            | cons first rest =>
                have hmem (q : Text) (hq : q ∈ first :: rest) (d : Nat) (hd : d ∈ q) : d ∈ s :=
                  ih (hparts ▸ hq) d hd
                rw [hparts, List.modifyHead_cons] at h
                obtain rfl | h := List.mem_cons.mp h
                · obtain rfl | hc := List.mem_cons.mp hc
                  · exact List.mem_cons_self
                  · exact List.mem_cons_of_mem _ (hmem first List.mem_cons_self c hc)
                · exact List.mem_cons_of_mem _ (hmem part (List.mem_cons_of_mem _ h) c hc)

/-! ### Cutting what was joined -/

theorem splitMax_of_not_mem {sep : Nat} {s : Text} (h : sep ∉ s) (n : Nat) :
    splitMax sep n s = [s] := by
  induction s with
  | nil => rw [splitMax]
  | cons c s ih =>
      cases n with
      | zero => rfl
      | succ n =>
          obtain ⟨hc, hs⟩ := not_or.mp (mt List.mem_cons.mpr h)
          rw [splitMax, if_neg (Ne.symm hc), ih hs]
          rfl

theorem splitMax_append {sep : Nat} {s : Text} (h : sep ∉ s) (n : Nat) (rest : Text) :
    splitMax sep (n + 1) (s ++ sep :: rest) = s :: splitMax sep n rest := by
  induction s with
  | nil =>
      rw [List.nil_append, splitMax]
      exact if_pos rfl
  | cons c s ih =>
      obtain ⟨hc, hs⟩ := not_or.mp (mt List.mem_cons.mpr h)
      rw [List.cons_append, splitMax, if_neg (Ne.symm hc), ih hs]
      rfl

theorem splitMax_join {sep : Nat} {parts : List Text} (hne : parts ≠ [])
    (h : ∀ part ∈ parts, sep ∉ part) {n : Nat} (hn : parts.length ≤ n + 1) :
    splitMax sep n (join sep parts) = parts := by
  induction parts generalizing n with
  | nil => exact absurd rfl hne
  | cons part parts ih =>
      have hpart := h part List.mem_cons_self
      cases parts with
      | nil => exact splitMax_of_not_mem hpart n
      | cons next parts =>
          cases n with
          | zero => simp at hn
          | succ n =>
              rw [join, splitMax_append hpart]
              · rw [ih (List.cons_ne_nil _ _) (fun p hp => h p (List.mem_cons_of_mem _ hp))]
                simpa using hn
              · exact List.cons_ne_nil _ _

theorem length_le_join (sep : Nat) (parts : List Text) :
    parts.length ≤ (join sep parts).length + 1 := by
  induction parts with
  | nil => exact Nat.zero_le _
  | cons part parts ih =>
      cases parts with
      | nil => exact Nat.le_add_left 1 _
      | cons next parts =>
          rw [join, List.length_append]
          · simp only [List.length_cons] at ih ⊢
            omega
          · exact List.cons_ne_nil _ _

/-- Parts without the separator come back as they were. -/
theorem splitAll_join {sep : Nat} {parts : List Text} (hne : parts ≠ [])
    (h : ∀ part ∈ parts, sep ∉ part) : splitAll sep (join sep parts) = parts :=
  splitMax_join hne h (length_le_join sep parts)

/-! ### Digits of a number -/

@[simp] theorem digitText_append (ds es : List Nat) :
    digitText (ds ++ es) = digitText ds ++ digitText es := List.map_append

@[simp] theorem length_digitText (ds : List Nat) : (digitText ds).length = ds.length :=
  List.length_map _

theorem length_natText (n : Nat) : (natText n).length = (natDigits n).length :=
  length_digitText _

theorem ofDigits_reverse (ds : List Nat) : ofDigits ds.reverse = Nat.ofDigits 10 ds := by
  rw [ofDigits, List.foldl_reverse, Nat.ofDigits_eq_foldr]
  simp [add_comm]

@[simp] theorem ofDigits_natDigits (n : Nat) : ofDigits (natDigits n) = n := by
  simp only [natDigits]
  split
  · rename_i h
    rw [h]
    rfl
  · rw [ofDigits_reverse, Nat.ofDigits_digits]

theorem natDigits_lt {n d : Nat} (h : d ∈ natDigits n) : d < 10 := by
  simp only [natDigits] at h
  split at h
  · simp only [List.mem_singleton] at h
    omega
  · exact Nat.digits_lt_base (by decide) (List.mem_reverse.mp h)

theorem natDigits_ne_nil (n : Nat) : natDigits n ≠ [] := by
  simp only [natDigits]
  split
  · exact List.cons_ne_nil _ _
  · rename_i h
    exact List.reverse_ne_nil_iff.mpr (Nat.digits_ne_nil_iff_ne_zero.mpr h)

/-- No leading zero but in zero itself. -/
theorem natDigits_head {n : Nat} (h : n ≠ 0) :
    (natDigits n).head (natDigits_ne_nil n) ≠ 0 := by
  have hlast := Nat.getLast_digit_ne_zero 10 h
  simpa [natDigits, h] using hlast

theorem ofDigits_append (ds es : List Nat) :
    ofDigits (ds ++ es) = ofDigits ds * 10 ^ es.length + ofDigits es := by
  have h := @Nat.ofDigits_append 10 es.reverse ds.reverse
  rw [← List.reverse_append, ← ofDigits_reverse, ← ofDigits_reverse, ← ofDigits_reverse] at h
  simp only [List.reverse_reverse, List.length_reverse] at h
  rw [h]
  ring

theorem ofDigits_replicate_zero (n : Nat) : ofDigits (List.replicate n 0) = 0 := by
  induction n with
  | zero => rfl
  | succ n ih => simpa [ofDigits, List.replicate_succ] using ih

theorem ofDigits_lt {ds : List Nat} (h : ∀ d ∈ ds, d < 10) : ofDigits ds < 10 ^ ds.length := by
  have hlt := Nat.ofDigits_lt_base_pow_length (b := 10) (l := ds.reverse) (by decide)
    fun d hd => h d (List.mem_reverse.mp hd)
  rwa [← ofDigits_reverse, List.reverse_reverse, List.length_reverse] at hlt

theorem lt_pow_length_natDigits (n : Nat) : n < 10 ^ (natDigits n).length := by
  have h : ofDigits (natDigits n) < 10 ^ (natDigits n).length :=
    ofDigits_lt fun d hd => natDigits_lt hd
  rwa [ofDigits_natDigits] at h

theorem pow_length_natDigits_le {n : Nat} (h : n ≠ 0) : 10 ^ ((natDigits n).length - 1) ≤ n := by
  have hlen : (natDigits n).length = (Nat.digits 10 n).length := by simp [natDigits, h]
  have hle := Nat.base_pow_length_digits_le 10 n (by decide) h
  have hpos := List.length_pos_of_ne_nil (natDigits_ne_nil n)
  rw [← hlen] at hle
  obtain ⟨k, hk⟩ := Nat.exists_eq_succ_of_ne_zero hpos.ne'
  rw [hk, Nat.pow_succ] at hle
  rw [hk, Nat.succ_sub_one]
  omega

/-- A number below a power of ten has no more digits. -/
theorem length_natDigits_le {n k : Nat} (hk : 0 < k) (h : n < 10 ^ k) :
    (natDigits n).length ≤ k := by
  by_cases hn : n = 0
  · rw [hn]
    exact hk
  · have hlt := (pow_length_natDigits_le hn).trans_lt h
    have := (Nat.pow_lt_pow_iff_right (by decide : 1 < 10)).mp hlt
    omega

end Python
