import NexusBackend.Library.Text
import NexusBackend.Library.Utf8

/-!
The query of a URL: `urllib.parse.quote_plus` and `urllib.parse.urlencode`.

A text is encoded in UTF-8; a letter, a digit, `_`, `.`, `-` and `~` stand for themselves, a space
is `+`, and any other byte is `%` and two digits. A text with a lone surrogate has no encoding.
-/
namespace Python

/-- A byte that `quote` leaves as it is. -/
def isUnreserved (b : Nat) : Bool :=
  (48 ≤ b && b ≤ 57) || (65 ≤ b && b ≤ 90) || (97 ≤ b && b ≤ 122) ||
    b = 45 || b = 46 || b = 95 || b = 126

def upperHexDigit (d : Nat) : Nat := if d < 10 then 48 + d else 55 + d

def quoteByte (b : Nat) : Text :=
  if isUnreserved b then [b]
  else if b = 32 then [43]
  else [37, upperHexDigit (b / 16), upperHexDigit (b % 16)]

/-- `quote_plus(s)`. -/
def quotePlus (s : Text) : Except Exn Text :=
  if ∀ c ∈ s, Utf8.IsScalar c then .ok ((Utf8.encode s).flatMap quoteByte) else raise .valueError

def quotePair (pair : Text × Text) : Except Exn Text := do
  let key ← quotePlus pair.1
  let value ← quotePlus pair.2
  return key ++ 61 :: value

/-- `urlencode(query)`. -/
def urlencode (query : List (Text × Text)) : Except Exn Text := join 38 <$> query.mapM quotePair

theorem upperHexDigit_inj {d e : Nat} (hd : d < 16) (he : e < 16)
    (h : upperHexDigit d = upperHexDigit e) : d = e := by
  simp only [upperHexDigit] at h
  split at h <;> split at h <;> omega

theorem unreserved_ne {b c : Nat} (hb : isUnreserved b = true) (hc : isUnreserved c = false) :
    b ≠ c := by
  rintro rfl
  rw [hb] at hc
  cases hc

/-- The code of one byte tells where it ends. -/
theorem quoteByte_prefix {a b : Nat} (ha : a < 256) (hb : b < 256) {x y : Text}
    (h : quoteByte a ++ x = quoteByte b ++ y) : a = b ∧ x = y := by
  have hplus : isUnreserved 43 = false := rfl
  have hpercent : isUnreserved 37 = false := rfl
  simp only [quoteByte] at h
  split at h
  · rename_i hsafe
    split at h
    · exact List.cons.inj h
    · split at h
      · exact absurd (List.cons.inj h).1 (unreserved_ne hsafe hplus)
      · exact absurd (List.cons.inj h).1 (unreserved_ne hsafe hpercent)
  · split at h
    · rename_i hspace
      split at h
      · rename_i hsafe
        exact absurd (List.cons.inj h).1.symm (unreserved_ne hsafe hplus)
      · split at h
        · rename_i hspace'
          exact ⟨hspace.trans hspace'.symm, (List.cons.inj h).2⟩
        · cases h
    · split at h
      · rename_i hsafe
        exact absurd (List.cons.inj h).1.symm (unreserved_ne hsafe hpercent)
      · split at h
        · cases h
        · simp only [List.cons_append, List.nil_append, List.cons.injEq, true_and] at h
          have hhigh := upperHexDigit_inj (by omega) (by omega) h.1
          have hlow := upperHexDigit_inj (by omega) (by omega) h.2.1
          exact ⟨by omega, h.2.2⟩

theorem quoteByte_ne_nil (b : Nat) : quoteByte b ≠ [] := by
  rw [quoteByte]
  split
  · exact List.cons_ne_nil _ _
  · split
    · exact List.cons_ne_nil _ _
    · exact List.cons_ne_nil _ _

theorem mem_quoteByte {b c : Nat} (hb : b < 256) (h : c ∈ quoteByte b) : c ≠ 38 ∧ c ≠ 61 := by
  have hdigit (d : Nat) (hd : d < 16) : upperHexDigit d ≠ 38 ∧ upperHexDigit d ≠ 61 := by
    simp only [upperHexDigit]
    split <;> omega
  rw [quoteByte] at h
  split at h
  · rename_i hsafe
    rw [List.mem_singleton.mp h]
    exact ⟨unreserved_ne hsafe rfl, unreserved_ne hsafe rfl⟩
  · split at h
    · rw [List.mem_singleton.mp h]
      decide
    · rcases List.mem_cons.mp h with rfl | h
      · decide
      · rcases List.mem_cons.mp h with rfl | h
        · exact hdigit _ (by omega)
        · rw [List.mem_singleton.mp h]
          exact hdigit _ (by omega)

theorem encode_bytes {s : Text} (hs : ∀ c ∈ s, Utf8.IsScalar c) :
    ∀ b ∈ Utf8.encode s, b < 256 := by
  intro b hb
  obtain ⟨c, hc, hchar⟩ := List.mem_flatMap.mp hb
  have hscalar := hs c hc
  simp only [Utf8.IsScalar] at hscalar
  simp only [Utf8.encodeChar] at hchar
  split_ifs at hchar
  · rw [List.mem_singleton.mp hchar]
    omega
  · simp only [List.mem_cons, List.not_mem_nil, or_false] at hchar
    omega
  · simp only [List.mem_cons, List.not_mem_nil, or_false] at hchar
    omega
  · simp only [List.mem_cons, List.not_mem_nil, or_false] at hchar
    omega

/-- A code in which each word tells where it ends can be read back. -/
theorem flatMap_injOn {α β : Type*} {f : α → List β} {P : α → Prop}
    (hstarts : ∀ a b x y, P a → P b → f a ++ x = f b ++ y → a = b ∧ x = y)
    (hne : ∀ a, f a ≠ []) {xs ys : List α} (hxs : ∀ a ∈ xs, P a) (hys : ∀ a ∈ ys, P a)
    (h : xs.flatMap f = ys.flatMap f) : xs = ys := by
  induction xs generalizing ys with
  | nil =>
      cases ys with
      | nil => rfl
      | cons b ys => exact absurd (List.append_eq_nil_iff.mp h.symm).1 (hne b)
  | cons a xs ih =>
      cases ys with
      | nil => exact absurd (List.append_eq_nil_iff.mp h).1 (hne a)
      | cons b ys =>
          obtain ⟨rfl, hrest⟩ := hstarts a b _ _ (hxs a List.mem_cons_self)
            (hys b List.mem_cons_self) h
          rw [ih (fun a ha => hxs a (List.mem_cons_of_mem _ ha))
            (fun b hb => hys b (List.mem_cons_of_mem _ hb)) hrest]

theorem quotePlus_ok {s quoted : Text} (h : quotePlus s = .ok quoted) :
    (∀ c ∈ s, Utf8.IsScalar c) ∧ quoted = (Utf8.encode s).flatMap quoteByte := by
  rw [quotePlus] at h
  split at h
  · rename_i hs
    cases h
    exact ⟨hs, rfl⟩
  · cases h

theorem quotePlus_inj {s t quoted : Text} (hs : quotePlus s = .ok quoted)
    (ht : quotePlus t = .ok quoted) : s = t := by
  obtain ⟨hscalar, rfl⟩ := quotePlus_ok hs
  obtain ⟨hscalar', heq⟩ := quotePlus_ok ht
  have hbytes := flatMap_injOn (fun a b x y ha hb => quoteByte_prefix ha hb) quoteByte_ne_nil
    (encode_bytes hscalar) (encode_bytes hscalar') heq
  rw [← Utf8.decode_encode hscalar, hbytes, Utf8.decode_encode hscalar']

theorem mem_quotePlus {s quoted : Text} (h : quotePlus s = .ok quoted) {c : Nat}
    (hc : c ∈ quoted) : c ≠ 38 ∧ c ≠ 61 := by
  obtain ⟨hs, rfl⟩ := quotePlus_ok h
  obtain ⟨b, hb, hbyte⟩ := List.mem_flatMap.mp hc
  exact mem_quoteByte (encode_bytes hs b hb) hbyte

theorem quotePair_ok {pair : Text × Text} {quoted : Text} (h : quotePair pair = .ok quoted) :
    ∃ key value, quotePlus pair.1 = .ok key ∧ quotePlus pair.2 = .ok value ∧
      quoted = key ++ 61 :: value := by
  obtain ⟨key, hkey, h⟩ := bind_eq_ok_iff.mp h
  obtain ⟨value, hvalue, h⟩ := bind_eq_ok_iff.mp h
  cases h
  exact ⟨key, value, hkey, hvalue, rfl⟩

theorem quotePair_inj {p q : Text × Text} {quoted : Text} (hp : quotePair p = .ok quoted)
    (hq : quotePair q = .ok quoted) : p = q := by
  obtain ⟨key, value, hkey, hvalue, rfl⟩ := quotePair_ok hp
  obtain ⟨key', value', hkey', hvalue', heq⟩ := quotePair_ok hq
  obtain ⟨rfl, -, rfl⟩ := (List.append_cons_inj_of_notMem (fun h => (mem_quotePlus hkey h).2 rfl)
    (fun h => (mem_quotePlus hvalue h).2 rfl)).mp heq
  exact Prod.ext (quotePlus_inj hkey hkey') (quotePlus_inj hvalue hvalue')

theorem quotePair_part {pair : Text × Text} {part : Text} (h : quotePair pair = .ok part) :
    part ≠ [] ∧ 38 ∉ part := by
  obtain ⟨key, value, hkey, hvalue, rfl⟩ := quotePair_ok h
  refine ⟨List.append_ne_nil_of_right_ne_nil _ (List.cons_ne_nil _ _), ?_⟩
  intro hand
  rcases List.mem_append.mp hand with hand | hand
  · exact (mem_quotePlus hkey hand).1 rfl
  · rcases List.mem_cons.mp hand with hand | hand
    · cases hand
    · exact (mem_quotePlus hvalue hand).1 rfl

theorem urlencode_ok {pairs : List (Text × Text)} {query : Text} (h : urlencode pairs = .ok query) :
    ∃ parts, pairs.mapM quotePair = .ok parts ∧ query = join 38 parts ∧
      splitAll 38 query = if parts = [] then [[]] else parts := by
  obtain ⟨parts, hparts, rfl⟩ := map_eq_ok_iff.mp h
  refine ⟨parts, hparts, rfl, ?_⟩
  split
  · rename_i hnil
    rw [hnil]
    rfl
  · rename_i hne
    refine splitAll_join hne ?_
    intro part hpart
    obtain ⟨pair, -, hpair⟩ := mem_of_mapM hparts hpart
    exact (quotePair_part hpair).2

/-- A query is that of one list of names and values. -/
theorem urlencode_inj {p q : List (Text × Text)} {query : Text} (hp : urlencode p = .ok query)
    (hq : urlencode q = .ok query) : p = q := by
  obtain ⟨parts, hparts, -, hsplit⟩ := urlencode_ok hp
  obtain ⟨parts', hparts', -, hsplit'⟩ := urlencode_ok hq
  have hnonempty {pairs : List (Text × Text)} {quoted : List Text}
      (h : pairs.mapM quotePair = .ok quoted) : [] ∉ quoted := by
    intro hmem
    obtain ⟨pair, -, hpair⟩ := mem_of_mapM h hmem
    exact (quotePair_part hpair).1 rfl
  have hsame : parts = parts' := by
    rw [hsplit] at hsplit'
    split at hsplit' <;> split at hsplit'
    · rename_i hnil hnil'
      rw [hnil, hnil']
    · exact absurd (hsplit' ▸ List.mem_singleton_self _) (hnonempty hparts')
    · exact absurd (hsplit' ▸ List.mem_singleton_self _) (hnonempty hparts)
    · exact hsplit'
  subst hsame
  have hunique : Relator.LeftUnique fun pair part => quotePair pair = .ok part :=
    fun _ _ _ h h' => quotePair_inj h h'
  exact hunique.forall₂ (mapM_eq_ok_iff.mp hparts) (mapM_eq_ok_iff.mp hparts')

end Python
