import NexusBackend.Library.Exceptions
import NexusBackend.Library.Ranking
import Mathlib.Algebra.Order.Field.Basic
import Mathlib.Data.Finmap
import Mathlib.Data.List.GetD
import Mathlib.Data.List.ReduceOption
import Mathlib.Tactic.Linarith

/-!
Rows whose gaps are filled from samples that other rows of the same table give.

A filled row gives the sample that it gave before, so what is filled in never becomes a sample:
filling again changes nothing. Samples are grouped by a key and summed up by their median, which
lies between any bounds of them.
-/

/-- What a row gives as a sample, and how a row is filled from the samples of all rows. -/
structure Imputation (ε ρ β : Type) where
  sample : ρ → Except ε (Option β)
  fill : List β → ρ → ρ
  sample_fill : ∀ samples row, sample (fill samples row) = sample row
  fill_fill : ∀ samples row, fill samples (fill samples row) = fill samples row

namespace Imputation

variable {ε ρ β : Type} (I : Imputation ε ρ β)

def samples (rows : List ρ) : Except ε (List β) := List.reduceOption <$> rows.mapM I.sample

def run (rows : List ρ) : Except ε (List ρ) := do
  let samples ← I.samples rows
  return rows.map (I.fill samples)

variable {I}

theorem run_of_samples {rows : List ρ} {samples : List β} (h : I.samples rows = .ok samples) :
    I.run rows = .ok (rows.map (I.fill samples)) := by
  rw [run, h]
  rfl

theorem run_eq_ok_iff {rows out : List ρ} :
    I.run rows = .ok out ↔
      ∃ samples, I.samples rows = .ok samples ∧ out = rows.map (I.fill samples) := by
  rw [run, Python.bind_eq_ok_iff]
  refine exists_congr fun samples => and_congr_right fun _ => ?_
  exact ⟨fun h => (Except.ok.inj h).symm, fun h => congrArg Except.ok h.symm⟩

/-- Filled rows give the samples of the rows they were. -/
theorem samples_map_fill (samples : List β) (rows : List ρ) :
    I.samples (rows.map (I.fill samples)) = I.samples rows := by
  rw [Imputation.samples, Imputation.samples, List.mapM_map]
  simp only [Function.comp_def, I.sample_fill]

theorem mem_samples_iff {rows : List ρ} {samples : List β} (h : I.samples rows = .ok samples)
    {b : β} : b ∈ samples ↔ ∃ row ∈ rows, I.sample row = .ok (some b) := by
  obtain ⟨options, hoptions, rfl⟩ := Python.map_eq_ok_iff.mp h
  rw [List.reduceOption_mem_iff]
  constructor
  · exact Python.mem_of_mapM hoptions
  · rintro ⟨row, hrow, hsample⟩
    obtain ⟨o, ho, hsample'⟩ := Python.of_mapM hoptions hrow
    cases hsample.symm.trans hsample'
    exact ho

/-- A second run changes nothing. -/
theorem run_run {rows out : List ρ} (h : I.run rows = .ok out) : I.run out = .ok out := by
  obtain ⟨samples, hsamples, rfl⟩ := run_eq_ok_iff.mp h
  have hagain := (samples_map_fill samples rows).trans hsamples
  rw [run_of_samples hagain, List.map_map]
  simp only [Function.comp_def, I.fill_fill]

theorem samples_of_perm {rows more : List ρ} (hperm : more.Perm rows) {samples : List β}
    (h : I.samples rows = .ok samples) :
    ∃ samples', samples'.Perm samples ∧ I.samples more = .ok samples' := by
  obtain ⟨options, hoptions, rfl⟩ := Python.map_eq_ok_iff.mp h
  obtain ⟨options', hforall, hperm'⟩ :=
    List.perm_comp_forall₂ hperm (Python.mapM_eq_ok_iff.mp hoptions)
  refine ⟨options'.reduceOption, hperm'.filterMap id, ?_⟩
  rw [Imputation.samples, Python.mapM_eq_ok_iff.mpr hforall]
  rfl

/-- Where the order of the samples does not count, that of the rows does not either. -/
theorem run_of_perm (hfill : ∀ samples samples' : List β, samples'.Perm samples →
    I.fill samples' = I.fill samples) {rows more : List ρ} (hperm : more.Perm rows)
    {samples : List β} (h : I.samples rows = .ok samples) :
    I.run more = .ok (more.map (I.fill samples)) := by
  obtain ⟨samples', hsame, hmore⟩ := samples_of_perm hperm h
  rw [run_of_samples hmore, hfill samples samples' hsame]

end Imputation

/-! ### Groups -/

/-- `d.setdefault(key, []).append(value)`. -/
def appendTo {κ α : Type} [DecidableEq κ] (d : Finmap fun _ : κ => List α) (key : κ) (value : α) :
    Finmap fun _ : κ => List α :=
  d.insert key ((d.lookup key).getD [] ++ [value])

theorem lookup_foldl_appendTo {κ α β : Type} [DecidableEq κ] (f : β → κ) (g : β → α)
    (xs : List β) (key : κ) :
    ((xs.foldl (fun d x => appendTo d (f x) (g x)) ∅).lookup key).getD [] =
      (xs.filter fun x => f x = key).map g := by
  induction xs using List.reverseRecOn with
  | nil => rfl
  | append_singleton xs x ih =>
      rw [List.foldl_append, List.filter_append, List.map_append, List.filter_singleton, ← ih]
      change ((appendTo _ _ _).lookup key).getD [] = _
      rw [appendTo]
      by_cases h : f x = key
      · subst h
        rw [Finmap.lookup_insert, decide_eq_true rfl]
        rfl
      · rw [Finmap.lookup_insert_of_ne _ (Ne.symm h), decide_eq_false h, cond_false,
          List.map_nil, List.append_nil]

/-! ### The median -/

section
variable {κ : Type} [Field κ] [LinearOrder κ]

/-- The median of data that is not empty, without rounding. -/
def exactMedian (data : List κ) : κ :=
  let sorted := Ranking.ascending id data
  let n := sorted.length
  if n % 2 = 1 then sorted.getD (n / 2) 0
  else (sorted.getD (n / 2 - 1) 0 + sorted.getD (n / 2) 0) / (2 : ℕ)

theorem exactMedian_of_perm {data data' : List κ} (h : data'.Perm data) :
    exactMedian data' = exactMedian data := by
  have hsorted : Ranking.ascending id data' = Ranking.ascending id data :=
    Ranking.eq_ascending id ((Ranking.ascending_perm id data').trans h)
      (Ranking.ascending_sorted id data') fun _ _ _ _ heq => heq
  rw [exactMedian, exactMedian, hsorted]

theorem exactMedian_between [IsStrictOrderedRing κ] {data : List κ} (hne : data ≠ [])
    {lo hi : κ} (hlo : ∀ x ∈ data, lo ≤ x) (hhi : ∀ x ∈ data, x ≤ hi) :
    lo ≤ exactMedian data ∧ exactMedian data ≤ hi := by
  have hperm := Ranking.ascending_perm id data
  have hlength : (Ranking.ascending id data).length ≠ 0 := by
    rw [hperm.length_eq]
    exact fun h => hne (List.length_eq_zero_iff.mp h)
  have hmem (i : ℕ) (hi : i < (Ranking.ascending id data).length) :
      (Ranking.ascending id data).getD i 0 ∈ data := by
    rw [List.getD_eq_getElem _ _ hi]
    exact hperm.mem_iff.mp (List.getElem_mem hi)
  rw [exactMedian, Nat.cast_two]
  split
  · have hmiddle := hmem _ (Nat.div_lt_self (Nat.pos_of_ne_zero hlength) Nat.one_lt_two)
    exact ⟨hlo _ hmiddle, hhi _ hmiddle⟩
  · have hlower := hmem ((Ranking.ascending id data).length / 2 - 1) (by omega)
    have hupper := hmem ((Ranking.ascending id data).length / 2) (by omega)
    have hlo1 := hlo _ hlower
    have hlo2 := hlo _ hupper
    have hhi1 := hhi _ hlower
    have hhi2 := hhi _ hupper
    constructor
    · linarith
    · linarith

end
