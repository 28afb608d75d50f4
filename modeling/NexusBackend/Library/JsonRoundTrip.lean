import NexusBackend.Library.NumberText
import NexusBackend.Library.Utf8

/-!
`json.loads` of what `json.dumps` prints: the same value, for a value whose integers have
no more digits than `int` reads, whose floats are floats, whose strings hold no surrogates
and whose keys are distinct, and which is not nested beyond the limit of the reader. Where
strings do hold surrogates, a high one and a low one that follow each other are joined.
-/
namespace Python
namespace Json

def IsUnicode (s : Text) : Prop := ∀ c ∈ s, Utf8.IsScalar c

instance (s : Text) : Decidable (IsUnicode s) :=
  inferInstanceAs (Decidable (∀ c ∈ s, Utf8.IsScalar c))

theorem isUnicode_of_ascii {s : Text} (h : ∀ c ∈ s, c < 128) : IsUnicode s := by
  intro c hc
  have hlt := h c hc
  exact .inl (by omega)

mutual

/-- The values that printing keeps. -/
def Loadable : Json → Prop
  | null => True
  | bool _ => True
  | int n => (natDigits n.natAbs).length ≤ maxIntDigits
  | float x => ∀ q, x = .finite q → IsDyadic q
  | str s => IsUnicode s
  | arr items => LoadableItems items
  | obj pairs => (pairs.map Prod.fst).Nodup ∧ LoadablePairs pairs

def LoadableItems : List Json → Prop
  | [] => True
  | v :: vs => Loadable v ∧ LoadableItems vs

def LoadablePairs : List (Text × Json) → Prop
  | [] => True
  | (k, v) :: ps => IsUnicode k ∧ Loadable v ∧ LoadablePairs ps

end

/-- One character read back: it is escaped unit by unit, and a second half of a pair joins
the first. -/
def rereadChar (st : Text × Bool) (c : Nat) : Text × Bool :=
  if c < 0x10000 then pushUnit st.1 st.2 c
  else
    let first := pushUnit st.1 st.2 ((0xd800 + (c - 0x10000) / 0x400) % 0x10000)
    pushUnit first.1 first.2 (0xdc00 + (c - 0x10000) % 0x400)

def rereadText (s : Text) : Text := (s.foldl rereadChar ([], false)).1.reverse

mutual

/-- What is read back of a printed value. -/
def reread : Json → Json
  | null => null
  | bool b => bool b
  | int n => int n
  | float x => float x
  | str s => str (rereadText s)
  | arr items => arr (rereadItems items)
  | obj pairs => obj (rereadPairs pairs)

def rereadItems : List Json → List Json
  | [] => []
  | v :: vs => reread v :: rereadItems vs

def rereadPairs : List (Text × Json) → List (Text × Json)
  | [] => []
  | (k, v) :: ps => (k, reread v) :: rereadPairs ps

end

mutual

/-- The values that can be read back, their strings as `rereadText` has them. -/
def Rereadable : Json → Prop
  | null => True
  | bool _ => True
  | int n => (natDigits n.natAbs).length ≤ maxIntDigits
  | float x => ∀ q, x = .finite q → IsDyadic q
  | str _ => True
  | arr items => RereadableItems items
  | obj pairs => (pairs.map Prod.fst).Nodup ∧ RereadablePairs pairs

def RereadableItems : List Json → Prop
  | [] => True
  | v :: vs => Rereadable v ∧ RereadableItems vs

def RereadablePairs : List (Text × Json) → Prop
  | [] => True
  | (k, v) :: ps => IsUnicode k ∧ Rereadable v ∧ RereadablePairs ps

end

theorem loadable_arr {items : List Json} (h : ∀ v ∈ items, v.Loadable) :
    (arr items).Loadable := by
  change LoadableItems items
  induction items with
  | nil => trivial
  | cons v items ih =>
      rw [List.forall_mem_cons] at h
      exact ⟨h.1, ih h.2⟩

theorem loadable_obj {pairs : List (Text × Json)} (hkeys : (pairs.map Prod.fst).Nodup)
    (h : ∀ p ∈ pairs, IsUnicode p.1 ∧ p.2.Loadable) : (obj pairs).Loadable := by
  refine ⟨hkeys, ?_⟩
  clear hkeys
  induction pairs with
  | nil => trivial
  | cons p pairs ih =>
      rw [List.forall_mem_cons] at h
      exact ⟨h.1.1, h.1.2, ih h.2⟩

theorem rereadable_arr {items : List Json} (h : ∀ v ∈ items, v.Rereadable) :
    (arr items).Rereadable := by
  change RereadableItems items
  induction items with
  | nil => trivial
  | cons v items ih =>
      rw [List.forall_mem_cons] at h
      exact ⟨h.1, ih h.2⟩

theorem rereadable_obj {pairs : List (Text × Json)} {keys : List Text}
    (hpairs : pairs.map Prod.fst = keys) (hkeys : keys.Nodup ∧ ∀ k ∈ keys, IsUnicode k)
    (hvalues : ∀ v ∈ pairs.map Prod.snd, v.Rereadable) : (obj pairs).Rereadable := by
  obtain ⟨hnodup, hunicode⟩ := hkeys
  rw [← hpairs] at hnodup hunicode
  refine ⟨hnodup, ?_⟩
  clear hnodup hpairs
  induction pairs with
  | nil => trivial
  | cons p pairs ih =>
      rw [List.map_cons, List.forall_mem_cons] at hunicode hvalues
      exact ⟨hunicode.1, hvalues.1, ih hvalues.2 hunicode.2⟩

theorem depth_arr_le {items : List Json} {n : Nat} (h : ∀ v ∈ items, v.depth ≤ n) :
    (arr items).depth ≤ n + 1 := by
  have hitems : depthItems items ≤ n := by
    induction items with
    | nil => exact Nat.zero_le n
    | cons v items ih =>
        rw [List.forall_mem_cons] at h
        exact max_le h.1 (ih h.2)
  exact Nat.succ_le_succ hitems

theorem depth_obj_le {pairs : List (Text × Json)} {n : Nat}
    (h : ∀ v ∈ pairs.map Prod.snd, v.depth ≤ n) : (obj pairs).depth ≤ n + 1 := by
  have hpairs : depthPairs pairs ≤ n := by
    induction pairs with
    | nil => exact Nat.zero_le n
    | cons p pairs ih =>
        rw [List.map_cons, List.forall_mem_cons] at h
        exact max_le h.1 (ih h.2)
  exact Nat.succ_le_succ hpairs

/-- A character that is no surrogate is read as it is. -/
theorem pushUnit_scalar (read : Text) (high : Bool) {c : Nat} (h : c < 0xd800 ∨ 0xdfff < c) :
    pushUnit read high c = (c :: read, false) := by
  have hhigh : isHighSurrogate c = false := by
    simp only [isHighSurrogate, Bool.and_eq_false_iff, decide_eq_false_iff_not]
    omega
  have hlow : isLowSurrogate c = false := by
    simp only [isLowSurrogate, Bool.and_eq_false_iff, decide_eq_false_iff_not]
    omega
  cases read <;> simp [pushUnit, hhigh, hlow]

theorem pushUnit_high (read : Text) (high : Bool) {c : Nat} (h : 0xd800 ≤ c ∧ c ≤ 0xdbff) :
    pushUnit read high c = (c :: read, true) := by
  have hhigh : isHighSurrogate c = true := by
    simp only [isHighSurrogate, Bool.and_eq_true, decide_eq_true_eq]
    exact h
  have hlow : isLowSurrogate c = false := by
    simp only [isLowSurrogate, Bool.and_eq_false_iff, decide_eq_false_iff_not]
    omega
  cases read <;> simp [pushUnit, hhigh, hlow]

theorem rereadChar_scalar (read : Text) (high : Bool) {c : Nat} (hc : Utf8.IsScalar c) :
    rereadChar (read, high) c = (c :: read, false) := by
  rw [Utf8.IsScalar] at hc
  rw [rereadChar]
  split
  · rename_i hbasic
    exact pushUnit_scalar read high (by omega)
  · rename_i hbasic
    have hfirst : (0xd800 + (c - 0x10000) / 0x400) % 0x10000 =
        0xd800 + (c - 0x10000) / 0x400 := by omega
    have hlow : isLowSurrogate (0xdc00 + (c - 0x10000) % 0x400) = true := by
      simp only [isLowSurrogate, Bool.and_eq_true, decide_eq_true_eq]
      omega
    have hjoin : 0x10000 + (0xd800 + (c - 0x10000) / 0x400 - 0xd800) * 0x400 +
        (0xdc00 + (c - 0x10000) % 0x400 - 0xdc00) = c := by omega
    rw [hfirst, pushUnit_high read high (by omega)]
    simp only [pushUnit, hlow, hjoin, and_self, if_true]

theorem foldl_rereadChar {s : Text} (hs : IsUnicode s) (read : Text) :
    s.foldl rereadChar (read, false) = (s.reverse ++ read, false) := by
  induction s generalizing read with
  | nil => rfl
  | cons c s ih =>
      rw [List.foldl_cons, rereadChar_scalar read false (hs c List.mem_cons_self),
        ih (fun d hd => hs d (List.mem_cons_of_mem _ hd)) (c :: read)]
      simp

/-- A string without surrogates is read as it is. -/
theorem rereadText_of_isUnicode {s : Text} (hs : IsUnicode s) : rereadText s = s := by
  rw [rereadText, foldl_rereadChar hs, List.append_nil, List.reverse_reverse]

mutual

theorem Loadable.rereadable (v : Json) (hv : Loadable v) : Rereadable v ∧ v.reread = v := by
  match v with
  | null => exact ⟨trivial, rfl⟩
  | bool _ => exact ⟨trivial, rfl⟩
  | int _ => exact ⟨hv, rfl⟩
  | float _ => exact ⟨hv, rfl⟩
  | str s => exact ⟨trivial, congrArg str (rereadText_of_isUnicode hv)⟩
  | arr items =>
      obtain ⟨hitems, heq⟩ := loadableItems_rereadable items hv
      exact ⟨hitems, congrArg arr heq⟩
  | obj pairs =>
      obtain ⟨hpairs, heq⟩ := loadablePairs_rereadable pairs hv.2
      exact ⟨⟨hv.1, hpairs⟩, congrArg obj heq⟩

theorem loadableItems_rereadable (items : List Json) (hitems : LoadableItems items) :
    RereadableItems items ∧ rereadItems items = items := by
  match items with
  | [] => exact ⟨trivial, rfl⟩
  | v :: vs =>
      obtain ⟨hv, hveq⟩ := Loadable.rereadable v hitems.1
      obtain ⟨hvs, hvseq⟩ := loadableItems_rereadable vs hitems.2
      exact ⟨⟨hv, hvs⟩, by rw [rereadItems, hveq, hvseq]⟩

theorem loadablePairs_rereadable (pairs : List (Text × Json)) (hpairs : LoadablePairs pairs) :
    RereadablePairs pairs ∧ rereadPairs pairs = pairs := by
  match pairs with
  | [] => exact ⟨trivial, rfl⟩
  | (k, v) :: ps =>
      obtain ⟨hv, hveq⟩ := Loadable.rereadable v hpairs.2.1
      obtain ⟨hps, hpseq⟩ := loadablePairs_rereadable ps hpairs.2.2
      exact ⟨⟨hpairs.1, hv, hps⟩, by rw [rereadPairs, hveq, hpseq]⟩

end

section
variable {limit : Nat}

theorem feed_cons (st : Reader) (c : Nat) (s : Text) :
    feed limit st (c :: s) = step limit st c >>= fun st => feed limit st s := rfl

theorem feed_append (st : Reader) (s t : Text) :
    feed limit st (s ++ t) = feed limit st s >>= fun st => feed limit st t :=
  List.foldlM_append

theorem feed_append_ok {st st' : Reader} {s : Text} (h : feed limit st s = .ok st') (t : Text) :
    feed limit st (s ++ t) = feed limit st' t := by
  rw [feed_append, h]
  rfl

theorem feed_cons_ok {st st' : Reader} {c : Nat} (h : step limit st c = .ok st') (s : Text) :
    feed limit st (c :: s) = feed limit st' s := by
  rw [feed_cons, h]
  rfl

/-- A character of no token first resolves the token that is open. -/
theorem step_delimiter {c : Nat} (hc : isTokenChar c = false) (st : Reader) :
    step limit st c = flush st >>= fun st => stepPlain limit st c := by
  rw [step]
  split
  · simp [hc]
  · rename_i hmode
    rw [flush]
    split
    · rename_i read hread
      exact absurd hread (hmode read)
    · rfl

/-- A complete value is no open token. -/
theorem flush_complete {v : Json} {stack : List Frame} {st : Reader}
    (h : complete v stack = .ok st) : flush st = .ok st := by
  simp only [complete] at h
  split at h
  · cases h
    rfl
  · cases h
    rfl
  · cases h
    rfl
  · cases h

/-! ### Strings -/

theorem hexDigit?_hexDigit : ∀ d < 16, hexDigit? (hexDigit d) = some d := by
  decide

section
variable (stack : List Frame) (isKey : Bool) (read : Text)

theorem step_backslash (high : Bool) :
    step limit ⟨stack, .string isKey read high .plain⟩ 92 =
      .ok ⟨stack, .string isKey read high .backslash⟩ := rfl

theorem step_hex (high : Bool) (missing value : Nat) {d : Nat} (hd : d < 16) :
    step limit ⟨stack, .string isKey read high (.unicode (missing + 2) value)⟩ (hexDigit d) =
      .ok ⟨stack, .string isKey read high (.unicode (missing + 1) (16 * value + d))⟩ := by
  simp [step, stepPlain, stepString, hexDigit?_hexDigit d hd]

theorem step_hex_last (high : Bool) (value : Nat) {d : Nat} (hd : d < 16) :
    step limit ⟨stack, .string isKey read high (.unicode 1 value)⟩ (hexDigit d) =
      .ok ⟨stack, .string isKey (pushUnit read high (16 * value + d)).1
        (pushUnit read high (16 * value + d)).2 .plain⟩ := by
  simp [step, stepPlain, stepString, hexDigit?_hexDigit d hd]

/-- An escape is read as the unit it stands for. -/
theorem feed_escapeUnit (high : Bool) (n : Nat) :
    feed limit ⟨stack, .string isKey read high .plain⟩ (escapeUnit n) =
      .ok ⟨stack, .string isKey (pushUnit read high (n % 0x10000)).1
        (pushUnit read high (n % 0x10000)).2 .plain⟩ := by
  have hvalue : 16 * (16 * (16 * (16 * 0 + n / 16 / 16 / 16 % 16) + n / 16 / 16 % 16) +
      n / 16 % 16) + n % 16 = n % 0x10000 := by omega
  have hmark : step limit ⟨stack, .string isKey read high .backslash⟩ 117 =
      .ok ⟨stack, .string isKey read high (.unicode 4 0)⟩ := rfl
  change feed limit _ (92 :: 117 :: hexDigit (n / 16 / 16 / 16 % 16) ::
    hexDigit (n / 16 / 16 % 16) :: hexDigit (n / 16 % 16) :: hexDigit (n % 16) :: []) = _
  rw [feed_cons_ok (step_backslash stack isKey read high), feed_cons_ok hmark,
    feed_cons_ok (step_hex stack isKey read high 2 _ (Nat.mod_lt _ (by decide))),
    feed_cons_ok (step_hex stack isKey read high 1 _ (Nat.mod_lt _ (by decide))),
    feed_cons_ok (step_hex stack isKey read high 0 _ (Nat.mod_lt _ (by decide))),
    feed_cons_ok (step_hex_last stack isKey read high _ (Nat.mod_lt _ (by decide))), hvalue]
  rfl

/-- An escape of one letter. -/
theorem feed_letter (high : Bool) {letter c : Nat} (h : escaped? letter = some c)
    (hu : letter ≠ 117) :
    feed limit ⟨stack, .string isKey read high .plain⟩ [92, letter] =
      .ok ⟨stack, .string isKey (c :: read) false .plain⟩ := by
  have hletter : step limit ⟨stack, .string isKey read high .backslash⟩ letter =
      .ok ⟨stack, .string isKey (c :: read) false .plain⟩ := by
    simp [step, stepPlain, stepString, h, hu]
  rw [feed_cons_ok (step_backslash stack isKey read high), feed_cons_ok hletter]
  rfl

/-- A character that is escaped by one letter, or not at all. -/
theorem rereadChar_ascii (high : Bool) {c : Nat} (hc : c < 127) :
    rereadChar (read, high) c = (c :: read, false) := by
  rw [rereadChar, if_pos (by omega)]
  exact pushUnit_scalar read high (by omega)

/-- One character, however it is escaped. -/
theorem feed_dumpsChar (high : Bool) (c : Nat) :
    feed limit ⟨stack, .string isKey read high .plain⟩ (dumpsChar c) =
      .ok ⟨stack, .string isKey (rereadChar (read, high) c).1
        (rereadChar (read, high) c).2 .plain⟩ := by
  rw [dumpsChar]
  split
  · rename_i h
    rw [rereadChar_ascii read high (by omega)]
    refine feed_letter stack isKey read high ?_ (by omega)
    obtain rfl | rfl := h <;> rfl
  split
  · rename_i hquote hplain
    rw [not_or] at hquote
    have hstep : step limit ⟨stack, .string isKey read high .plain⟩ c =
        .ok ⟨stack, .string isKey (c :: read) false .plain⟩ := by
      simp [step, stepPlain, stepString, hquote.1, hquote.2, Nat.not_lt.mpr hplain.1]
    rw [rereadChar_ascii read high (by omega), feed_cons_ok hstep]
    rfl
  split
  · rename_i h
    rw [rereadChar_ascii read high (by omega), h]
    exact feed_letter stack isKey read high rfl (by decide)
  split
  · rename_i h
    rw [rereadChar_ascii read high (by omega), h]
    exact feed_letter stack isKey read high rfl (by decide)
  split
  · rename_i h
    rw [rereadChar_ascii read high (by omega), h]
    exact feed_letter stack isKey read high rfl (by decide)
  split
  · rename_i h
    rw [rereadChar_ascii read high (by omega), h]
    exact feed_letter stack isKey read high rfl (by decide)
  split
  · rename_i h
    rw [rereadChar_ascii read high (by omega), h]
    exact feed_letter stack isKey read high rfl (by decide)
  rw [rereadChar]
  split
  · rename_i hbasic
    rw [feed_escapeUnit stack isKey read high c, Nat.mod_eq_of_lt hbasic]
  · have hsecond : (0xdc00 + (c - 0x10000) % 0x400) % 0x10000 =
        0xdc00 + (c - 0x10000) % 0x400 := by omega
    rw [feed_append_ok (feed_escapeUnit stack isKey read high _), feed_escapeUnit, hsecond]

theorem feed_chars (s : Text) (high : Bool) :
    feed limit ⟨stack, .string isKey read high .plain⟩ (s.flatMap dumpsChar) =
      .ok ⟨stack, .string isKey (s.foldl rereadChar (read, high)).1
        (s.foldl rereadChar (read, high)).2 .plain⟩ := by
  induction s generalizing read high with
  | nil => rfl
  | cons c s ih =>
      rw [List.flatMap_cons, feed_append_ok (feed_dumpsChar stack isKey read high c), ih]
      rfl

end

/-- A printed string, from its opening quote on. -/
theorem feed_dumpsStr (stack : List Frame) (isKey : Bool) (s : Text) {st : Reader}
    (hopen : step limit st 34 = .ok ⟨stack, .string isKey [] false .plain⟩) :
    feed limit st (dumpsStr s) = endString stack isKey (rereadText s) := by
  have hclose (high : Bool) : step limit
      ⟨stack, .string isKey (s.foldl rereadChar ([], false)).1 high .plain⟩ 34 =
        endString stack isKey (rereadText s) := rfl
  rw [dumpsStr, List.cons_append, feed_cons_ok hopen,
    feed_append_ok (feed_chars stack isKey [] s false), feed_cons, hclose]
  cases endString stack isKey (rereadText s) <;> rfl

/-- What has been read up to a value or a member that is complete. -/
def ReadsTo (limit : Nat) (st : Reader) (s : Text) (st' : Reader) : Prop :=
  ∃ next, feed limit st s = .ok next ∧ flush next = .ok st'

/-! ### Tokens -/

theorem isTokenChar_not_special : ∀ c < 123, isTokenChar c = true →
    isBlank c = false ∧ c ≠ 91 ∧ c ≠ 34 := by
  decide +kernel

theorem lt_of_isTokenChar {c : Nat} (h : isTokenChar c = true) : c < 123 := by
  simp only [isTokenChar, Bool.or_eq_true, Bool.and_eq_true, decide_eq_true_eq] at h
  omega

theorem feed_token_rest (stack : List Frame) (read : Text) {s : Text}
    (hs : ∀ c ∈ s, isTokenChar c = true) :
    feed limit ⟨stack, .token read⟩ s = .ok ⟨stack, .token (s.reverse ++ read)⟩ := by
  induction s generalizing read with
  | nil => rfl
  | cons c s ih =>
      have hstep : step limit ⟨stack, .token read⟩ c = .ok ⟨stack, .token (c :: read)⟩ := by
        simp [step, hs c List.mem_cons_self]
      rw [feed_cons_ok hstep, ih (c :: read) fun d hd => hs d (List.mem_cons_of_mem _ hd)]
      simp

/-- A token, up to its resolution. -/
theorem feed_token (stack : List Frame) (closable : Bool) {s : Text} (hne : s ≠ [])
    (hs : ∀ c ∈ s, isTokenChar c = true) :
    feed limit ⟨stack, .value closable⟩ s = .ok ⟨stack, .token s.reverse⟩ := by
  cases s with
  | nil => exact absurd rfl hne
  | cons c s =>
      have hc := hs c List.mem_cons_self
      have hlt := lt_of_isTokenChar hc
      obtain ⟨hblank, hbracket, hquote⟩ := isTokenChar_not_special c hlt hc
      have hstep : step limit ⟨stack, .value closable⟩ c = .ok ⟨stack, .token [c]⟩ := by
        simp [step, stepPlain, stepValue, hblank, hbracket, hquote, hc, hlt.ne]
      rw [feed_cons_ok hstep,
        feed_token_rest stack [c] fun d hd => hs d (List.mem_cons_of_mem _ hd)]
      simp

theorem isTokenChar_of_isNumberChar {c : Nat} (h : Lexeme.IsNumberChar c) :
    isTokenChar c = true := by
  obtain h | h := h
  · simp only [isTokenChar, Bool.or_eq_true, Bool.and_eq_true, decide_eq_true_eq]
    omega
  · simp only [List.mem_cons, List.not_mem_nil, or_false] at h
    obtain rfl | rfl | rfl | rfl := h <;> rfl

/-- The text of one token, where a value is expected. -/
theorem readsTo_token {v : Json} {s : Text} (hs : ∀ c ∈ s, isTokenChar c = true)
    (hne : s ≠ []) (hv : resolve s = .ok v) {stack : List Frame} {closable : Bool} {st' : Reader}
    (h : complete v stack = .ok st') : ReadsTo limit ⟨stack, .value closable⟩ s st' := by
  refine ⟨_, feed_token stack closable hne hs, ?_⟩
  rw [flush]
  dsimp only
  rw [List.reverse_reverse, hv]
  exact h

theorem signedText_ne_nil {x : Lexeme} (h : x.Valid) (negative : Bool) :
    signedText negative x ≠ [] := by
  obtain ⟨d, -, hhead⟩ := Lexeme.head_text h
  obtain ⟨tail, htail⟩ := List.head?_eq_some_iff.mp hhead
  simp only [signedText]
  rw [htail]
  simp

/-! ### Values -/

theorem ReadsTo.of_feed {st st' : Reader} {s : Text} (h : feed limit st s = .ok st')
    (hflush : flush st' = .ok st') : ReadsTo limit st s st' := ⟨st', h, hflush⟩

/-- Text before the value. -/
theorem ReadsTo.prepend {st st₁ st' : Reader} {s t : Text} (h : feed limit st s = .ok st₁)
    (ht : ReadsTo limit st₁ t st') : ReadsTo limit st (s ++ t) st' := by
  obtain ⟨next, hfeed, hflush⟩ := ht
  exact ⟨next, (feed_append_ok h t).trans hfeed, hflush⟩

/-- A delimiter after the value. -/
theorem ReadsTo.delimit {st st₁ st' : Reader} {s t : Text} {c : Nat} (h : ReadsTo limit st s st₁)
    (hc : isTokenChar c = false) (ht : ReadsTo limit st₁ (c :: t) st') (hst : flush st₁ = .ok st₁) :
    ReadsTo limit st (s ++ c :: t) st' := by
  obtain ⟨next, hfeed, hflush⟩ := h
  obtain ⟨last, hlast, hend⟩ := ht
  refine ⟨last, ?_, hend⟩
  rw [feed_append_ok hfeed, feed_cons, step_delimiter hc, hflush, ← hlast, feed_cons,
    step_delimiter hc, hst]

theorem step_comma_items (items : List Json) (rest : List Frame) {t : Text} {st' : Reader}
    (h : ReadsTo limit ⟨.arr items :: rest, .value false⟩ t st') :
    ReadsTo limit ⟨.arr items :: rest, .after⟩ (44 :: 32 :: t) st' :=
  ReadsTo.prepend (s := [44, 32]) rfl h

theorem step_comma_pairs (pairs : List (Text × Json)) (rest : List Frame) {t : Text}
    {st' : Reader} (h : ReadsTo limit ⟨.obj pairs :: rest, .key false⟩ t st') :
    ReadsTo limit ⟨.obj pairs :: rest, .after⟩ (44 :: 32 :: t) st' :=
  ReadsTo.prepend (s := [44, 32]) rfl h

/-- A key and its colon. -/
theorem feed_key (done : List (Text × Json)) (rest : List Frame) (closable : Bool) {key : Text}
    (hkey : IsUnicode key) :
    feed limit ⟨.obj done :: rest, .key closable⟩ (dumpsStr key ++ text ": ") =
      .ok ⟨.member done key :: rest, .value false⟩ := by
  have hopen : step limit ⟨.obj done :: rest, .key closable⟩ 34 =
      .ok ⟨.obj done :: rest, .string true [] false .plain⟩ := rfl
  have hread : feed limit ⟨.obj done :: rest, .key closable⟩ (dumpsStr key) =
      .ok ⟨.member done key :: rest, .colon⟩ := by
    rw [feed_dumpsStr _ true key hopen, rereadText_of_isUnicode hkey]
    rfl
  rw [feed_append_ok hread]
  rfl

/-- The bracket that opens a container. -/
theorem feed_open {stack : List Frame} {closable : Bool} {c : Nat} {frame : Frame} {mode : Mode}
    (hlen : stack.length < limit)
    (hc : step limit ⟨stack, .value closable⟩ c = openContainer limit frame mode stack) :
    feed limit ⟨stack, .value closable⟩ [c] = .ok ⟨frame :: stack, mode⟩ :=
  feed_cons_ok (hc.trans (if_pos hlen)) []

/-- The bracket that closes one. -/
theorem readsTo_close {v : Json} {stack : List Frame} {frame : Frame} {mode : Mode} {c : Nat}
    {st' : Reader} (h : complete v stack = .ok st')
    (hc : step limit ⟨frame :: stack, mode⟩ c = complete v stack) :
    ReadsTo limit ⟨frame :: stack, mode⟩ [c] st' :=
  .of_feed (feed_cons_ok (hc.trans h) []) (flush_complete h)

/-- The value of a key that is new. -/
theorem complete_member {done rest : List (Text × Json)} {key : Text} {w : Json} (v : Json)
    (stack : List Frame) (h : ((done ++ (key, w) :: rest).map Prod.fst).Nodup) :
    complete v (.member done key :: stack) = .ok ⟨.obj (done ++ [(key, v)]) :: stack, .after⟩ := by
  have hnew : key ∉ done.map Prod.fst := by
    rw [List.map_append] at h
    exact fun hk => (List.nodup_append.mp h).2.2 key hk key List.mem_cons_self rfl
  rw [← setKey_new v hnew]
  rfl

mutual

/-- A printed value is read back. -/
theorem readsTo_dumpsText (v : Json) (hv : Rereadable v) {stack : List Frame} (closable : Bool)
    (hdepth : stack.length + v.depth ≤ limit) {st' : Reader}
    (h : complete v.reread stack = .ok st') :
    ReadsTo limit ⟨stack, .value closable⟩ v.dumpsText st' := by
  match v with
  | null => exact readsTo_token (by decide) (by decide) rfl h
  | bool b => cases b <;> exact readsTo_token (by decide) (by decide) rfl h
  | int n =>
      refine readsTo_token (fun c hc => ?_) ?_ (resolve_int hv) h
      · rw [intText_eq] at hc
        exact isTokenChar_of_isNumberChar
          (Lexeme.signedText_chars (intLexeme_valid n) _ c hc)
      · rw [intText_eq]
        exact signedText_ne_nil (intLexeme_valid n) _
  | float .nan => exact readsTo_token (by decide) (by decide) rfl h
  | float (.inf negative) =>
      cases negative <;> exact readsTo_token (by decide) (by decide) rfl h
  | float (.finite q) =>
      have hq := hv q rfl
      have hresolve := resolve_float hq
      obtain ⟨negative, x, hx, hprints⟩ := Float.text_eq hq
      change ReadsTo limit _ (Float.text (.finite q)) st'
      rw [hx] at hresolve ⊢
      exact readsTo_token (fun c hc => isTokenChar_of_isNumberChar
        (Lexeme.signedText_chars hprints.valid negative c hc))
        (signedText_ne_nil hprints.valid negative) hresolve h
  | str s =>
      have hopen : step limit ⟨stack, .value closable⟩ 34 =
          .ok ⟨stack, .string false [] false .plain⟩ := rfl
      exact .of_feed ((feed_dumpsStr stack false s hopen).trans h) (flush_complete h)
  | arr items =>
      simp only [depth] at hdepth
      have hopen : feed limit ⟨stack, .value closable⟩ [91] =
          .ok ⟨.arr [] :: stack, .value true⟩ := feed_open (by omega) rfl
      refine .prepend (s := [91]) hopen ?_
      match items with
      | [] => exact readsTo_close h rfl
      | w :: ws =>
          have hread := readsTo_dumpsItems (w :: ws) (List.cons_ne_nil _ _) hv [] stack true
            (by omega)
          exact hread.delimit rfl (readsTo_close h rfl) rfl
  | obj pairs =>
      simp only [depth] at hdepth
      have hopen : feed limit ⟨stack, .value closable⟩ [123] =
          .ok ⟨.obj [] :: stack, .key true⟩ := feed_open (by omega) rfl
      refine .prepend (s := [123]) hopen ?_
      match pairs with
      | [] => exact readsTo_close h rfl
      | p :: ps =>
          have hread := readsTo_dumpsPairs (p :: ps) (List.cons_ne_nil _ _) hv.2 [] hv.1 stack
            true (by omega)
          exact hread.delimit rfl (readsTo_close h rfl) rfl

theorem readsTo_dumpsItems (items : List Json) (hne : items ≠ []) (hitems : RereadableItems items)
    (done : List Json) (rest : List Frame) (closable : Bool)
    (hdepth : rest.length + 1 + depthItems items ≤ limit) :
    ReadsTo limit ⟨.arr done :: rest, .value closable⟩ (dumpsItems items)
      ⟨.arr (done ++ rereadItems items) :: rest, .after⟩ := by
  match items with
  | [] => exact absurd rfl hne
  | [v] =>
      simp only [depthItems] at hdepth
      exact readsTo_dumpsText v hitems.1 closable (by simp only [List.length_cons]; omega) rfl
  | v :: w :: vs =>
      rw [depthItems] at hdepth
      have hv : ReadsTo limit ⟨.arr done :: rest, .value closable⟩ v.dumpsText
          ⟨.arr (done ++ [v.reread]) :: rest, .after⟩ :=
        readsTo_dumpsText v hitems.1 closable (by simp only [List.length_cons]; omega) rfl
      have hrest := readsTo_dumpsItems (w :: vs) (List.cons_ne_nil _ _) hitems.2
        (done ++ [v.reread]) rest false (by omega)
      rw [List.append_assoc] at hrest
      change ReadsTo limit _ (v.dumpsText ++ text ", " ++ dumpsItems (w :: vs)) _
      rw [List.append_assoc]
      exact hv.delimit rfl (step_comma_items _ rest hrest) rfl

theorem readsTo_dumpsPairs (pairs : List (Text × Json)) (hne : pairs ≠ [])
    (hpairs : RereadablePairs pairs) (done : List (Text × Json))
    (hkeys : ((done ++ pairs).map Prod.fst).Nodup) (rest : List Frame) (closable : Bool)
    (hdepth : rest.length + 1 + depthPairs pairs ≤ limit) :
    ReadsTo limit ⟨.obj done :: rest, .key closable⟩ (dumpsPairs pairs)
      ⟨.obj (done ++ rereadPairs pairs) :: rest, .after⟩ := by
  match pairs with
  | [] => exact absurd rfl hne
  | [(k, v)] =>
      simp only [depthPairs] at hdepth
      refine .prepend (feed_key done rest closable hpairs.1) ?_
      exact readsTo_dumpsText v hpairs.2.1 false (by simp only [List.length_cons]; omega)
        (complete_member v.reread rest hkeys)
  | (k, v) :: p :: ps =>
      rw [depthPairs] at hdepth
      have hv : ReadsTo limit ⟨.member done k :: rest, .value false⟩ v.dumpsText
          ⟨.obj (done ++ [(k, v.reread)]) :: rest, .after⟩ :=
        readsTo_dumpsText v hpairs.2.1 false (by simp only [List.length_cons]; omega)
          (complete_member v.reread rest hkeys)
      have hrest := readsTo_dumpsPairs (p :: ps) (List.cons_ne_nil _ _) hpairs.2.2
        (done ++ [(k, v.reread)]) (by simpa using hkeys) rest false (by omega)
      rw [List.append_assoc] at hrest
      change ReadsTo limit _ (dumpsStr k ++ text ": " ++ v.dumpsText ++ text ", " ++
        dumpsPairs (p :: ps)) _
      rw [List.append_assoc, List.append_assoc]
      exact .prepend (feed_key done rest closable hpairs.1)
        (hv.delimit rfl (step_comma_pairs _ rest hrest) rfl)

end

/-- The reader refuses a byte order mark where a value is expected. -/
theorem head_of_feed_start {s : Text} {st : Reader} (h : feed limit start s = .ok st) :
    s.head? ≠ some 0xfeff := by
  intro hhead
  obtain ⟨t, rfl⟩ := List.head?_eq_some_iff.mp hhead
  rw [feed_cons] at h
  cases h

theorem loads_dumpsText_reread {v : Json} (hv : Rereadable v) (hdepth : v.depth ≤ limit) :
    loads limit v.dumpsText = .ok v.reread := by
  have hread : ReadsTo limit start v.dumpsText ⟨[], .finished v.reread⟩ :=
    readsTo_dumpsText v hv false (by rwa [List.length_nil, Nat.zero_add]) rfl
  obtain ⟨st, hfeed, hflush⟩ := hread
  rw [loads, if_neg (head_of_feed_start hfeed), hfeed]
  change (flush st >>= _) = _
  rw [hflush]
  rfl

/-- A printed value is read as the value that it prints. -/
theorem loads_dumpsText {v : Json} (hv : Loadable v) (hdepth : v.depth ≤ limit) :
    loads limit v.dumpsText = .ok v := by
  obtain ⟨hread, heq⟩ := hv.rereadable
  rw [loads_dumpsText_reread hread hdepth, heq]

end

end Json
end Python
