import NexusBackend.Library.JsonCut
import NexusBackend.Library.Nesting
import NexusBackend.Trading.MacroContract

/-!
A vote serialised as JSON and read back by `_parse_signal`, through fences or prose. The
scan for the closing brace counts the braces inside strings too, so it finds the end of the
object exactly where that count stays above zero up to the last brace.
-/
namespace NexusBackend

open Python Nesting

/-! ### The scan for the closing brace -/

def braceWeight (c : Nat) : Int := if c = 123 then 1 else if c = 125 then -1 else 0

theorem closeBraces_eq_some {depth : Nat} (hdepth : 0 < depth) {s block : Text}
    (h : closeBraces depth s = some block) :
    block <+: s ∧ block.getLast? = some 125 ∧ ClosesFrom braceWeight depth block := by
  induction s generalizing depth block with
  | nil => cases h
  | cons c s ih =>
      rw [closeBraces] at h
      have hrest {d : Nat} (hd : 0 < d) (hweight : (d : Int) = depth + braceWeight c)
          (h : (c :: ·) <$> closeBraces d s = some block) :
          block <+: c :: s ∧ block.getLast? = some 125 ∧ ClosesFrom braceWeight depth block := by
        obtain ⟨block', hblock', rfl⟩ := Option.map_eq_some_iff.mp h
        obtain ⟨hpre, hlast, hcloses⟩ := ih hd hblock'
        refine ⟨List.cons_prefix_cons.mpr ⟨rfl, hpre⟩, ?_, ?_⟩
        · rw [List.getLast?_cons, hlast]
          rfl
        · rw [hweight] at hcloses
          exact hcloses.cons (by omega)
      split_ifs at h with hopen hclose hzero
      · exact hrest (by omega) (by simp [braceWeight, hopen]) h
      · obtain rfl := Option.some.inj h
        refine ⟨List.cons_prefix_cons.mpr ⟨rfl, List.nil_prefix⟩, by rw [hclose]; rfl, ?_⟩
        apply closesFrom_singleton
        simp [braceWeight, hclose]
        omega
      · exact hrest (by omega) (by simp [braceWeight, hclose]; omega) h
      · exact hrest hdepth (by simp [braceWeight, hopen, hclose]) h

theorem closeBraces_of_closesFrom {depth : Nat} (hdepth : 0 < depth) {block : Text}
    (h : ClosesFrom braceWeight depth block) (tail : Text) :
    closeBraces depth (block ++ tail) = some block := by
  induction block generalizing depth with
  | nil =>
      have hzero := h.zero
      rw [net_nil] at hzero
      omega
  | cons c block ih =>
      by_cases hblock : block = []
      · have hzero := h.zero
        rw [hblock, net_cons, net_nil, braceWeight] at hzero
        split_ifs at hzero with hopen hclose
        · omega
        · obtain rfl : depth = 1 := by omega
          rw [hblock, hclose]
          rfl
        · omega
      · obtain ⟨hpos, htail⟩ := h.tail hblock
        rw [List.cons_append, closeBraces]
        rw [braceWeight] at hpos htail
        split_ifs at hpos htail ⊢ with hopen hclose hzero
        · rw [ih (Nat.succ_pos _) (by exact_mod_cast htail)]
          rfl
        · omega
        · have hcast : ((depth - 1 : Nat) : Int) = depth + -1 := by omega
          rw [ih (by omega) (by rwa [hcast])]
          rfl
        · rw [ih hdepth (by rwa [add_zero] at htail)]
          rfl

/-- On a text that opens with a brace, the scan finds the closed beginning, if there is one. -/
theorem closeBraces_eq_some_of_head {s block : Text} (hs : s.head? = some 123)
    (h : closeBraces 0 s = some block) :
    block <+: s ∧ block.getLast? = some 125 ∧ Closed braceWeight block := by
  obtain ⟨s, rfl⟩ := List.head?_eq_some_iff.mp hs
  obtain ⟨block', hblock', rfl⟩ := Option.map_eq_some_iff.mp h
  obtain ⟨hpre, hlast, hcloses⟩ := closeBraces_eq_some Nat.one_pos hblock'
  refine ⟨List.cons_prefix_cons.mpr ⟨rfl, hpre⟩, ?_, hcloses.cons (by decide)⟩
  rw [List.getLast?_cons, hlast]
  rfl

theorem closeBraces_of_closed {block : Text} (hblock : block.head? = some 123)
    (h : Closed braceWeight block) (tail : Text) :
    closeBraces 0 (block ++ tail) = some block := by
  obtain ⟨block, rfl⟩ := List.head?_eq_some_iff.mp hblock
  have hne : block ≠ [] := by
    rintro rfl
    cases h.zero
  have hinner := closeBraces_of_closesFrom Nat.one_pos (h.tail hne).2 tail
  change (123 :: ·) <$> closeBraces 1 (block ++ tail) = _
  rw [hinner]
  rfl

/-! ### A serialised vote and what may stand around it -/

/-- The text of a JSON object, from brace to brace, that decodes to the fields. -/
structure Serialises (loadsLimit : Nat) (body : Text) (pairs : List (Text × Json)) : Prop where
  head : body.head? = some 123
  last : body.getLast? = some 125
  decoded : Json.loads loadsLimit body = .ok (.obj pairs)

/-- Every object that `json.loads` can restore is serialised by `json.dumps`. -/
theorem serialises_dumpsText {loadsLimit : Nat} {pairs : List (Text × Json)}
    (hpairs : (Json.obj pairs).Loadable) (hdepth : (Json.obj pairs).depth ≤ loadsLimit) :
    Serialises loadsLimit (Json.obj pairs).dumpsText pairs where
  head := rfl
  last := List.getLast?_concat
  decoded := Json.loads_dumpsText hpairs hdepth

/-- An action in any case, a number that a float can hold, and a rationale that says
something in 500 characters at most. -/
structure ProperVote (pairs : List (Text × Json)) (action : Action) (q : ℚ) (rationale : Text) :
    Prop where
  action : ∃ s, Json.get? pairs (text "action") = some (.str s) ∧
    asciiLower (strip s) = action.value
  confidence : ∃ v, Json.get? pairs (text "confidence") = some v ∧ IsPlainNumber v ∧
    v.toFloat = .ok (.finite q)
  stated : Json.get? pairs (text "rationale") = some (.str rationale)
  filled : strip rationale ≠ []
  short : rationale.length ≤ rationaleMaxChars

/-- The body between the lines of two fences, or after prose without a brace, which may be
empty and does not start like a list or a fence. -/
inductive Wrapped (body : Text) : Text → Prop
  | fenced {before label inner inner' behind : Text} (hbefore : IsBlank before)
      (hlabel : label = [] ∨ label = text "json") (hinner : IsBlank inner)
      (hinner' : IsBlank inner') (hbehind : IsBlank behind) :
      Wrapped body (before ++
        (fence ++ label ++ 10 :: (inner ++ body ++ inner') ++ fence) ++ behind)
  | prose {said behind : Text} (hbrace : 123 ∉ said) (hlist : (lstrip said).head? ≠ some 91)
      (hfence : startsWith (lstrip said) fence = false) (hbehind : IsBlank behind) :
      Wrapped body (said ++ body ++ behind)

/-- The text as it is. -/
theorem wrapped_self (body : Text) : Wrapped body body := by
  have hempty : IsBlank [] := fun c hc => by cases hc
  have h : Wrapped body ([] ++ body ++ []) :=
    .prose List.not_mem_nil nofun (by decide) hempty
  rwa [List.nil_append, List.append_nil] at h

theorem isTrimmed_body {body : Text} (hhead : body.head? = some 123)
    (hlast : body.getLast? = some 125) : IsTrimmed body := by
  refine ⟨fun c hc => ?_, fun c hc => ?_⟩
  · cases hhead.symm.trans hc
    decide
  · cases hlast.symm.trans hc
    decide

/-- The text of two fences is what stands between their lines. -/
theorem unfence_fenced {label inside : Text} (hlabel : label = [] ∨ label = text "json") :
    unfence (fence ++ label ++ 10 :: inside ++ fence) = strip inside := by
  have hline : ∀ c ∈ fence ++ label, decide (c ≠ 10) = true := by
    rcases hlabel with rfl | rfl <;> decide
  have hstart : startsWith (fence ++ label ++ 10 :: inside ++ fence) fence = true := by
    rw [startsWith, List.isPrefixOf_iff_prefix, List.append_assoc, List.append_assoc]
    exact List.prefix_append _ _
  have hnewline : 10 ∈ fence ++ label ++ 10 :: inside ++ fence := by simp
  have hrest : ((fence ++ label ++ 10 :: inside ++ fence).dropWhile (· ≠ 10)).drop 1 =
      inside ++ fence := by
    rw [List.append_assoc, List.dropWhile_append_of_pos hline]
    rfl
  have htrimmed : rstrip (inside ++ fence) = inside ++ fence := by
    apply rstrip_of_last
    rw [List.getLast?_append_of_ne_nil _ (by decide)]
    decide
  have hend : endsWith (inside ++ fence) fence = true := by
    rw [endsWith, List.isSuffixOf_iff_suffix]
    exact List.suffix_append _ _
  have hinside : (inside ++ fence).rdrop 3 = inside := by
    change (inside ++ fence).rdrop fence.length = inside
    exact List.rdrop_append_length
  rw [unfence, if_pos hstart]
  dsimp only
  rw [if_pos hnewline, hrest, htrimmed, if_pos hend, hinside]

/-- Prose that does not start like a fence is left as it is. -/
theorem unfence_prose {said body : Text} (hfence : startsWith said fence = false)
    (hbody : body.head? = some 123) : unfence (said ++ body) = said ++ body := by
  rw [unfence, if_neg]
  rw [startsWith, List.isPrefixOf_iff_prefix]
  intro hpre
  have hnot : ¬ fence <+: said := by
    rw [← List.isPrefixOf_iff_prefix]
    exact Bool.eq_false_iff.mp hfence
  obtain h | ⟨rest, hrest⟩ :=
    List.prefix_or_prefix_of_prefix hpre (List.prefix_append said body)
  · exact hnot h
  · rw [← hrest, List.prefix_append_right_inj] at hpre
    cases rest with
    | nil =>
        rw [List.append_nil] at hrest
        exact hnot (hrest ▸ List.prefix_rfl)
    | cons c rest =>
        obtain ⟨tail, rfl⟩ := hpre
        obtain rfl : c = 123 := Option.some.inj hbody
        have hmem : 123 ∈ fence := by
          rw [← hrest]
          simp
        revert hmem
        decide

/-- Past the wrapping, the scan runs over the body. -/
theorem extractJsonBlock_of_unfence {raw said body : Text}
    (h : unfence (strip raw) = said ++ body) (hbody : body.head? = some 123)
    (hbrace : 123 ∉ said) (hlist : (lstrip said).head? ≠ some 91) :
    extractJsonBlock raw = foundBlock (closeBraces 0 body) := by
  obtain ⟨tail, rfl⟩ := List.head?_eq_some_iff.mp hbody
  have hopen : ∀ c ∈ (123 :: tail : Text).head?, isSpace c = false := by
    intro c hc
    cases hc
    decide
  have hstart : (lstrip (said ++ 123 :: tail)).head? ≠ some 91 := by
    rw [lstrip_append hopen]
    cases hsaid : lstrip said with
    | nil => exact nofun
    | cons c rest =>
        rw [hsaid] at hlist
        exact hlist
  have hdrop : (said ++ 123 :: tail).dropWhile (· ≠ 123) = 123 :: tail := by
    rw [List.dropWhile_append_of_pos]
    · rfl
    · intro c hc
      exact decide_eq_true fun heq => hbrace (heq ▸ hc)
  rw [extractJsonBlock, h, if_neg hstart, hdrop]

theorem extractJsonBlock_wrapped {raw body : Text} (h : Wrapped body raw)
    (hhead : body.head? = some 123) (hlast : body.getLast? = some 125) :
    extractJsonBlock raw = foundBlock (closeBraces 0 body) := by
  have hbody := isTrimmed_body hhead hlast
  have hne : body ≠ [] := by
    rintro rfl
    cases hhead
  cases h with
  | @fenced before label inner inner' behind hbefore hlabel hinner hinner' hbehind =>
      have hfenced : IsTrimmed (fence ++ label ++ 10 :: (inner ++ body ++ inner') ++ fence) := by
        refine ⟨fun c hc => ?_, fun c hc => ?_⟩
        · cases hc
          decide
        · rw [List.getLast?_append_of_ne_nil _ (by decide)] at hc
          cases hc
          decide
      refine extractJsonBlock_of_unfence ?_ hhead (List.not_mem_nil : 123 ∉ ([] : Text)) nofun
      rw [hfenced.strip_append (by simp [fence]) hbehind, lstrip_blank hbefore, List.nil_append,
        unfence_fenced hlabel, hbody.strip_append hne hinner', lstrip_blank hinner]
  | @prose said behind hbrace hlist hfence hbehind =>
      have hnone : 123 ∉ lstrip said := fun hmem =>
        hbrace ((List.dropWhile_sublist _).subset hmem)
      refine extractJsonBlock_of_unfence ?_ hhead hnone (by rwa [lstrip_lstrip])
      rw [hbody.strip_append hne hbehind, unfence_prose hfence hhead]

/-! ### Decoding -/

theorem ProperVote.states {pairs : List (Text × Json)} {action : Action} {q : ℚ}
    {rationale : Text} (h : ProperVote pairs action q rationale) (pr : Json.Printing) :
    StatesVote pr pairs action q rationale := by
  obtain ⟨s, hs, hvalue⟩ := h.action
  have htoStr (s : Text) : (Json.str s).toStr pr = .ok s := if_pos (Nat.zero_le _)
  exact ⟨⟨.str s, s, hs, htoStr s, hvalue⟩, h.confidence, by rw [h.stated]; exact htoStr _⟩

theorem shorten_of_short {rationale : Text} (h : rationale.length ≤ rationaleMaxChars) :
    shorten rationale = strip rationale := by
  exact if_neg (Nat.not_lt.mpr ((strip_sublist rationale).length_le.trans h))

/-- The vote is decoded exactly where the braces of its text, those inside strings with
them, stay open up to the last one. -/
theorem MacroAgent.parseSignal_decodes_iff (a : MacroAgent) (pr : Json.Printing)
    (loadsLimit : Nat) (symbol : Text) (now : UtcTime) {body raw rationale : Text}
    {pairs : List (Text × Json)} {action : Action} {q : ℚ}
    (hbody : Serialises loadsLimit body pairs) (hvote : ProperVote pairs action q rationale)
    (hraw : Wrapped body raw) :
    (∃ signal, a.parseSignal pr loadsLimit symbol (some raw) now = .ok signal ∧
      signal.action = action ∧ signal.confidence = max 0 (min 1 q) ∧
      signal.rationale = strip rationale) ↔ Closed braceWeight body := by
  have hextract := extractJsonBlock_wrapped hraw hbody.head hbody.last
  constructor
  · rintro ⟨signal, hparse, -⟩
    obtain ⟨_, _, _, ⟨block, fields, hblock, hloads, -⟩, -⟩ :=
      (a.parseSignal_eq_ok_iff pr loadsLimit).mp hparse
    rw [hextract] at hblock
    cases hscan : closeBraces 0 body with
    | none =>
        rw [hscan] at hblock
        cases hblock
    | some block' =>
        rw [hscan] at hblock
        obtain rfl := Except.ok.inj hblock
        obtain ⟨⟨rest, hrest⟩, hlast, hclosed⟩ := closeBraces_eq_some_of_head hbody.head hscan
        cases rest with
        | nil =>
            rw [List.append_nil] at hrest
            exact hrest ▸ hclosed
        | cons c rest =>
            have hhead : block'.head? = some 123 := by
              rw [← hbody.head, ← hrest, List.head?_append_of_ne_nil]
              rintro rfl
              cases hlast
            have hdecoded := hbody.decoded
            rw [← hrest] at hdecoded
            refine absurd hloads (Json.loads_cut hhead hdecoded ⟨125, ?_, rfl⟩)
            have hend := hbody.last
            rw [← hrest, List.getLast?_append_of_ne_nil _ (List.cons_ne_nil _ _)] at hend
            exact List.mem_of_getLast? hend
  · intro hclosed
    have hscan := closeBraces_of_closed hbody.head hclosed []
    rw [List.append_nil] at hscan
    rw [hscan] at hextract
    refine ⟨_, (a.parseSignal_eq_ok_iff pr loadsLimit).mpr ⟨action, q, rationale,
      ⟨body, pairs, hextract, hbody.decoded, hvote.states pr⟩, rfl⟩, rfl, rfl, ?_⟩
    rw [shorten_of_short hvote.short]
    exact if_neg hvote.filled

namespace MacroAgent

/-- A vote to buy, its fields and its text. -/
def buyFields (rationale : Text) : List (Text × Json) :=
  [(text "action", .str (text "Buy ")), (text "confidence", .int 2),
    (text "rationale", .str rationale)]

def buyText (rationale : Text) : Text :=
  text "\x7b\"action\": \"Buy \", \"confidence\": 2, \"rationale\": \"" ++ rationale ++
    text "\"\x7d"

theorem buyFields_proper {rationale : Text} (hfilled : strip rationale ≠ [])
    (hshort : rationale.length ≤ rationaleMaxChars) :
    ProperVote (buyFields rationale) .buy 2 rationale where
  action := ⟨text "Buy ", rfl, by decide⟩
  confidence := ⟨.int 2, rfl, trivial, by decide +kernel⟩
  stated := rfl
  filled := hfilled
  short := hshort

theorem parseSignal_decodes_earnings : ∃ signal,
    withoutNews.parseSignal ⟨1000, 1000, fun _ => true⟩ 1000 (text "005930")
      (some (buyText (text "earnings"))) ⟨sampleDate, .midnight⟩ = .ok signal ∧
      signal.action = .buy ∧ signal.confidence = max 0 (min 1 2) ∧
      signal.rationale = strip (text "earnings") := by
  have hscan : closeBraces 0 (buyText (text "earnings")) = some (buyText (text "earnings")) := by
    decide
  exact (parseSignal_decodes_iff withoutNews _ 1000 _ _ ⟨rfl, rfl, rfl⟩
    (buyFields_proper (by decide) (by decide)) (wrapped_self _)).mpr
    (closeBraces_eq_some_of_head rfl hscan).2.2

/-- A closing brace in the rationale ends the scan inside the string. -/
theorem parseSignal_brace_lost :
    Serialises 1000 (buyText (text "up :\x7d")) (buyFields (text "up :\x7d")) ∧
      ProperVote (buyFields (text "up :\x7d")) .buy 2 (text "up :\x7d") ∧
      Wrapped (buyText (text "up :\x7d")) (buyText (text "up :\x7d")) ∧
      ¬ ∃ signal, withoutNews.parseSignal ⟨1000, 1000, fun _ => true⟩ 1000 (text "005930")
        (some (buyText (text "up :\x7d"))) ⟨sampleDate, .midnight⟩ = .ok signal := by
  refine ⟨⟨rfl, rfl, rfl⟩, buyFields_proper (by decide) (by decide), wrapped_self _, ?_⟩
  have hfails : (withoutNews.parseSignal ⟨1000, 1000, fun _ => true⟩ 1000 (text "005930")
      (some (buyText (text "up :\x7d"))) ⟨sampleDate, .midnight⟩).isOk = false := by
    decide +kernel
  rintro ⟨signal, h⟩
  rw [h] at hfails
  cases hfails

end MacroAgent
end NexusBackend
