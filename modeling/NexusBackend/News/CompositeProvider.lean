import NexusBackend.Library.FirstOccurrences
import NexusBackend.Library.LetterCase

/-!
`CompositeNewsProvider`: the headlines of several providers as one list, and the count of the
providers that failed.

An inner provider is what it returns or raises in a world `W`, for a symbol; what it raises is of
a type `ε` that nothing here reads. The merge runs without an await once all have ended. Log
records are left out.
-/
namespace NexusBackend

open Python

variable {W ε : Type}

structure CompositeNewsProvider (W ε : Type) where
  inners : List (W → Text → Except ε (List Text))
  maxTotal : Nat
  inners_ne : inners ≠ []
  maxTotal_pos : 0 < maxTotal

namespace CompositeNewsProvider

def make (inners : List (W → Text → Except ε (List Text))) (maxTotal : Int) :
    Except Exn (CompositeNewsProvider W ε) :=
  if hinners : inners ≠ [] then
    if htotal : 0 < maxTotal then .ok ⟨inners, maxTotal.toNat, hinners, by omega⟩
    else raise .valueError (text "max_total must be > 0, got " ++ intText maxTotal)
  else raise .valueError (text "CompositeNewsProvider needs at least one inner provider")

/-- What two headlines share that are taken for one. -/
def headlineKey (t : CaseTable) (headline : Text) : Text := t.lower (strip headline)

/-- The loop over the headlines of one provider: all are read, or the total is reached. -/
inductive Merging
  | more (merged seen : List Text)
  | full (merged : List Text)
deriving DecidableEq

def mergeHeadlines (t : CaseTable) (maxTotal : Nat) :
    List Text → List Text → List Text → Merging
  | merged, seen, [] => .more merged seen
  | merged, seen, headline :: headlines =>
      let key := headlineKey t headline
      if key = [] ∨ key ∈ seen then mergeHeadlines t maxTotal merged seen headlines
      else if maxTotal ≤ (merged ++ [headline]).length then .full (merged ++ [headline])
      else mergeHeadlines t maxTotal (merged ++ [headline]) (key :: seen) headlines

/-- The loop over the results: the headlines, and the count of failures. -/
def mergeResults (t : CaseTable) (maxTotal : Nat) :
    Nat → List Text → List Text → List (Except ε (List Text)) → List Text × Nat
  | failures, merged, _, [] => (merged, failures)
  | failures, merged, seen, .error _ :: results =>
      mergeResults t maxTotal (failures + 1) merged seen results
  | failures, merged, seen, .ok headlines :: results =>
      match mergeHeadlines t maxTotal merged seen headlines with
      | .full merged => (merged, failures)
      | .more merged seen => mergeResults t maxTotal failures merged seen results

/-- What the inner providers return and raise, in their order. -/
def gather (p : CompositeNewsProvider W ε) (w : W) (symbol : Text) :
    List (Except ε (List Text)) :=
  p.inners.map fun inner => inner w symbol

/-- `recent_headlines`; the state is `_failure_count`. -/
def recentHeadlines (t : CaseTable) (p : CompositeNewsProvider W ε) (w : W) (symbol : Text) :
    StateM Nat (List Text) :=
  fun failures => mergeResults t p.maxTotal failures [] [] (p.gather w symbol)

/-! ### The merge as one list -/

def headlinesOf : Except ε (List Text) → List Text
  | .ok headlines => headlines
  | .error _ => []

/-- The headlines of all providers that are not blank. -/
def candidates (results : List (Except ε (List Text))) : List Text :=
  (results.flatMap headlinesOf).filter fun headline => strip headline ≠ []

/-- The first of each headline, whatever its letter case and the space around it. -/
def distinct (t : CaseTable) (results : List (Except ε (List Text))) : List Text :=
  firstOccurrences (headlineKey t) (candidates results)

variable {t : CaseTable} {maxTotal : Nat}

theorem headlineKey_eq_nil_iff (t : CaseTable) (headline : Text) :
    headlineKey t headline = [] ↔ strip headline = [] := t.lower_eq_nil_iff _

/-- What has been merged is short of the total, and its keys are those that were seen. -/
structure Short (t : CaseTable) (maxTotal : Nat) (merged seen : List Text) : Prop where
  length : merged.length < maxTotal
  seen : ∀ key, key ∈ seen ↔ key ∈ merged.map (headlineKey t)

/-- Adding the headlines of a provider reaches the total or leaves what there is of them. -/
def Adds (t : CaseTable) (maxTotal : Nat) (all : List Text) : Merging → Prop
  | .full merged => maxTotal ≤ all.length ∧ merged = all.take maxTotal
  | .more merged seen => merged = all ∧ Short t maxTotal merged seen

theorem mergeHeadlines_adds {merged seen : List Text} (h : Short t maxTotal merged seen)
    (headlines : List Text) :
    Adds t maxTotal (KeyedTable.addAllNew (headlineKey t) merged
        (headlines.filter fun headline => strip headline ≠ []))
      (mergeHeadlines t maxTotal merged seen headlines) := by
  induction headlines generalizing merged seen with
  | nil => exact ⟨rfl, h⟩
  | cons headline headlines ih =>
      rw [mergeHeadlines]
      by_cases hblank : strip headline = []
      · rw [if_pos (.inl ((headlineKey_eq_nil_iff t headline).mpr hblank)),
          List.filter_cons_of_neg (by simpa using hblank)]
        exact ih h
      · have hkey := mt (headlineKey_eq_nil_iff t headline).mp hblank
        rw [List.filter_cons_of_pos (by simpa using hblank), KeyedTable.addAllNew_cons,
          KeyedTable.addNew]
        by_cases hseen : headlineKey t headline ∈ seen
        · rw [if_pos ((h.seen _).mp hseen), if_pos (.inr hseen)]
          exact ih h
        · rw [if_neg (mt (h.seen _).mpr hseen), if_neg (not_or.mpr ⟨hkey, hseen⟩)]
          have hlength := h.length
          split
          · rename_i hfull
            rw [List.length_append, List.length_singleton] at hfull
            have htotal : maxTotal = (merged ++ [headline]).length := by
              rw [List.length_append, List.length_singleton]
              omega
            rw [KeyedTable.addAllNew_eq_append]
            refine ⟨?_, ?_⟩
            · rw [htotal]
              exact (List.sublist_append_left _ _).length_le
            · rw [htotal, List.take_left]
          · rename_i hmore
            refine ih ⟨Nat.lt_of_not_le hmore, ?_⟩
            intro key
            rw [List.mem_cons, h.seen, List.map_append, List.map_singleton, List.mem_append,
              List.mem_singleton, or_comm]

theorem candidates_ok (headlines : List Text) (results : List (Except ε (List Text))) :
    candidates (.ok headlines :: results) =
      (headlines.filter fun headline => strip headline ≠ []) ++ candidates results := by
  rw [candidates, List.flatMap_cons, List.filter_append]
  rfl

theorem candidates_error (e : ε) (results : List (Except ε (List Text))) :
    candidates (.error e :: results) = candidates results := rfl

theorem take_addAllNew {merged more most : List Text}
    (h : maxTotal ≤ (KeyedTable.addAllNew (headlineKey t) merged more).length) :
    (KeyedTable.addAllNew (headlineKey t) merged (more ++ most)).take maxTotal =
      (KeyedTable.addAllNew (headlineKey t) merged more).take maxTotal := by
  rw [KeyedTable.addAllNew_append, KeyedTable.addAllNew_eq_append, List.take_append_of_le_length h]

/-- The two loops cut the first occurrences off at the total. -/
theorem mergeResults_headlines {merged seen : List Text} (h : Short t maxTotal merged seen)
    (failures : Nat) (results : List (Except ε (List Text))) :
    (mergeResults t maxTotal failures merged seen results).1 =
      (KeyedTable.addAllNew (headlineKey t) merged (candidates results)).take maxTotal := by
  induction results generalizing failures merged seen with
  | nil => exact (List.take_of_length_le h.length.le).symm
  | cons result results ih =>
      cases result with
      | error e => exact ih h (failures + 1)
      | ok headlines =>
          have hadds := mergeHeadlines_adds h headlines
          rw [mergeResults, candidates_ok]
          cases hmerge : mergeHeadlines t maxTotal merged seen headlines with
          | full merged' =>
              rw [hmerge] at hadds
              rw [take_addAllNew hadds.1]
              exact hadds.2
          | more merged' seen' =>
              rw [hmerge] at hadds
              obtain ⟨rfl, hshort⟩ := hadds
              rw [KeyedTable.addAllNew_append]
              exact ih hshort failures

theorem short_nil (t : CaseTable) (p : CompositeNewsProvider W ε) : Short t p.maxTotal [] [] :=
  ⟨p.maxTotal_pos, fun _ => Iff.rfl⟩

/-- The answer is the first of each headline of all that the providers return, in their order,
up to the total; and to raise is to return nothing. -/
theorem recentHeadlines_merges (t : CaseTable) (p : CompositeNewsProvider W ε) (w : W)
    (symbol : Text) (failures : Nat) :
    (p.recentHeadlines t w symbol failures).1 =
        (distinct t (p.gather w symbol)).take p.maxTotal ∧
      ∀ before e after, p.gather w symbol = before ++ .error e :: after →
        (p.recentHeadlines t w symbol failures).1 =
          (mergeResults t p.maxTotal failures [] [] (before ++ .ok [] :: after)).1 := by
  have hmerge (results : List (Except ε (List Text))) :=
    mergeResults_headlines (short_nil t p) failures results
  constructor
  · rw [recentHeadlines, hmerge, addAllNew_nil, distinct]
  · intro before e after hsplit
    have hsame : candidates (before ++ .error e :: after) =
        candidates (before ++ .ok [] :: after) := by
      simp only [candidates, List.flatMap_append, List.flatMap_cons, headlinesOf]
    rw [recentHeadlines, hmerge, hmerge, hsplit, hsame]

/-! ### The count of failures -/

def failed : Except ε (List Text) → Bool
  | .ok _ => false
  | .error _ => true

/-- How many of the inner providers raised. -/
def raised (results : List (Except ε (List Text))) : Nat := results.countP failed

/-- `failure_count` after calls, each in a world and for a symbol. -/
def failureCount (t : CaseTable) (p : CompositeNewsProvider W ε) (calls : List (W × Text)) : Nat :=
  calls.foldl (fun failures call => (p.recentHeadlines t call.1 call.2 failures).2) 0

/-- Whenever a provider raises, those before it have left the total unreached. -/
def RaisesInTime (t : CaseTable) (maxTotal : Nat) (results : List (Except ε (List Text))) : Prop :=
  ∀ before e after, results = before ++ .error e :: after → (distinct t before).length < maxTotal

/-- The same when something has been merged already. -/
def RaisesInTimeFrom (t : CaseTable) (maxTotal : Nat) (merged : List Text)
    (results : List (Except ε (List Text))) : Prop :=
  ∀ before e after, results = before ++ .error e :: after →
    (KeyedTable.addAllNew (headlineKey t) merged (candidates before)).length < maxTotal

theorem raisesInTimeFrom_nil (results : List (Except ε (List Text))) :
    RaisesInTimeFrom t maxTotal [] results ↔ RaisesInTime t maxTotal results := by
  simp only [RaisesInTimeFrom, RaisesInTime, addAllNew_nil, distinct]

theorem raisesInTimeFrom_error {merged seen : List Text} (h : Short t maxTotal merged seen)
    (e : ε) (results : List (Except ε (List Text))) :
    RaisesInTimeFrom t maxTotal merged (.error e :: results) ↔
      RaisesInTimeFrom t maxTotal merged results := by
  constructor
  · intro hall before e' after hsplit
    have hone := hall (.error e :: before) e' after (congrArg _ hsplit)
    rwa [candidates_error] at hone
  · intro hall before e' after hsplit
    cases before with
    | nil => exact h.length
    | cons first before =>
        obtain ⟨rfl, hrest⟩ := List.cons.inj hsplit
        rw [candidates_error]
        exact hall before e' after hrest

theorem raisesInTimeFrom_ok (merged headlines : List Text)
    (results : List (Except ε (List Text))) :
    RaisesInTimeFrom t maxTotal merged (.ok headlines :: results) ↔
      RaisesInTimeFrom t maxTotal (KeyedTable.addAllNew (headlineKey t) merged
        (headlines.filter fun headline => strip headline ≠ [])) results := by
  constructor
  · intro hall before e after hsplit
    have hone := hall (.ok headlines :: before) e after (congrArg _ hsplit)
    rwa [candidates_ok, KeyedTable.addAllNew_append] at hone
  · intro hall before e after hsplit
    cases before with
    | nil => cases hsplit
    | cons first before =>
        obtain ⟨rfl, hrest⟩ := List.cons.inj hsplit
        rw [candidates_ok, KeyedTable.addAllNew_append]
        exact hall before e after hrest

/-- Once the total is reached nothing may raise. -/
theorem raisesInTimeFrom_full {merged : List Text} (h : maxTotal ≤ merged.length)
    (results : List (Except ε (List Text))) :
    RaisesInTimeFrom t maxTotal merged results ↔ raised results = 0 := by
  rw [raised, List.countP_eq_zero]
  constructor
  · intro hall result hresult hfailed
    cases result with
    | ok headlines => cases hfailed
    | error e =>
        obtain ⟨before, after, hsplit⟩ := List.append_of_mem hresult
        have hlt := hall before e after hsplit
        rw [KeyedTable.addAllNew_eq_append, List.length_append] at hlt
        omega
  · intro hnone before e after hsplit
    have hmem : Except.error e ∈ results := by
      rw [hsplit]
      exact List.mem_append_right _ List.mem_cons_self
    exact absurd rfl (hnone _ hmem)

/-- The loop counts all that raise just when none of them comes after the early return. -/
theorem mergeResults_failures_iff {merged seen : List Text} (h : Short t maxTotal merged seen)
    (failures : Nat) (results : List (Except ε (List Text))) :
    (mergeResults t maxTotal failures merged seen results).2 = failures + raised results ↔
      RaisesInTimeFrom t maxTotal merged results := by
  induction results generalizing failures merged seen with
  | nil =>
      refine iff_of_true rfl ?_
      intro before e after hsplit
      exact absurd hsplit.symm (List.append_ne_nil_of_right_ne_nil _ (List.cons_ne_nil _ _))
  | cons result results ih =>
      cases result with
      | error e =>
          have hcount : raised (.error e :: results) = raised results + 1 :=
            List.countP_cons_of_pos rfl
          rw [mergeResults, raisesInTimeFrom_error h, ← ih h (failures + 1), hcount]
          omega
      | ok headlines =>
          have hadds := mergeHeadlines_adds h headlines
          have hcount : raised (.ok headlines :: results) = raised results :=
            List.countP_cons_of_neg nofun
          rw [mergeResults, raisesInTimeFrom_ok, hcount]
          cases hmerge : mergeHeadlines t maxTotal merged seen headlines with
          | full merged' =>
              rw [hmerge] at hadds
              rw [raisesInTimeFrom_full hadds.1]
              exact Nat.left_eq_add
          | more merged' seen' =>
              rw [hmerge] at hadds
              obtain ⟨rfl, hshort⟩ := hadds
              exact ih hshort failures

theorem failureCount_concat (t : CaseTable) (p : CompositeNewsProvider W ε)
    (calls : List (W × Text)) (call : W × Text) :
    failureCount t p (calls ++ [call]) =
      (p.recentHeadlines t call.1 call.2 (failureCount t p calls)).2 :=
  List.foldl_append

/-- Each call counts just those that raised in it, if and only if in none of the calls a provider
raises after the ones before it have filled the answer. -/
theorem failureCount_iff (t : CaseTable) (p : CompositeNewsProvider W ε)
    (calls : List (W × Text)) :
    (∀ before call after, calls = before ++ call :: after →
      failureCount t p (before ++ [call]) =
        failureCount t p before + raised (p.gather call.1 call.2)) ↔
      ∀ call ∈ calls, RaisesInTime t p.maxTotal (p.gather call.1 call.2) := by
  have hcall (before : List (W × Text)) (call : W × Text) :
      failureCount t p (before ++ [call]) =
        failureCount t p before + raised (p.gather call.1 call.2) ↔
      RaisesInTime t p.maxTotal (p.gather call.1 call.2) := by
    rw [failureCount_concat, recentHeadlines, mergeResults_failures_iff (short_nil t p),
      raisesInTimeFrom_nil]
  simp only [hcall]
  constructor
  · intro hall call hmem
    obtain ⟨before, after, hsplit⟩ := List.append_of_mem hmem
    exact hall before call after hsplit
  · intro hall before call after hsplit
    refine hall call ?_
    rw [hsplit]
    exact List.mem_append_right _ List.mem_cons_self

/-- A provider that answers before one that always raises. -/
def shadowed : CompositeNewsProvider Unit Unit where
  inners := [fun _ _ => .ok [text "a"], fun _ _ => .error ()]
  maxTotal := 1
  inners_ne := List.cons_ne_nil _ _
  maxTotal_pos := Nat.one_pos

theorem failureCount_shadowed :
    ¬ ∀ before call,
      failureCount CaseTable.ascii shadowed (before ++ [call]) =
        failureCount CaseTable.ascii shadowed before +
          raised (shadowed.gather call.1 call.2) := by
  intro hall
  have hone := hall [] ((), text "005930")
  revert hone
  decide

end CompositeNewsProvider
end NexusBackend
