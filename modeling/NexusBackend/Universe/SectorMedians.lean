import NexusBackend.Library.Imputation
import NexusBackend.Universe.Retention
import Mathlib.Data.Set.Finite.Lemmas
import Mathlib.Data.Set.Finite.List

/-!
`_apply_sector_median_estimates` with the dictionaries of its pools, over the numbers it computes
with: floats, where it is the pass of `build_real_universe`, or exact rationals.

Rows that are filled leave the pools as they are, whatever the numbers. Where nothing is rounded
an estimate lies between the least and the greatest cap of its pool, and the order of the rows
does not count.
-/
namespace NexusBackend

open Python

/-- The numbers of market caps: `float`, the median of a pool, and what goes into a row. -/
structure CapNumbers (κ : Type) where
  read : Number → Except Exn κ
  median : List κ → κ
  write : κ → Number

/-- `real`, `by_sector` and `by_market`. -/
structure CapPools (κ : Type) where
  real : Finmap fun _ : Text × Text => List κ
  bySector : Finmap fun _ : Text => List κ
  byMarket : Finmap fun _ : Text => List κ

namespace CapPools

variable {κ : Type}

/-- The pools of the caps, each with its sector and market. -/
def of (samples : List (Text × Text × κ)) : CapPools κ where
  real := samples.foldl (fun d c => appendTo d (c.1, c.2.1) c.2.2) ∅
  bySector := samples.foldl (fun d c => appendTo d c.1 c.2.2) ∅
  byMarket := samples.foldl (fun d c => appendTo d c.2.1 c.2.2) ∅

/-- `a or b` of lists. -/
def orList (a b : List κ) : List κ := if a ≠ [] then a else b

/-- `caps`. -/
def caps (pools : CapPools κ) (sector market : Text) : List κ :=
  orList ((pools.real.lookup (sector, market)).getD [])
    (orList ((pools.bySector.lookup sector).getD []) ((pools.byMarket.lookup market).getD []))

theorem caps_of (samples : List (Text × Text × κ)) (sector market : Text) :
    (of samples).caps sector market =
      orList ((samples.filter fun c => (c.1, c.2.1) = (sector, market)).map fun c => c.2.2)
        (orList ((samples.filter fun c => c.1 = sector).map fun c => c.2.2)
          ((samples.filter fun c => c.2.1 = market).map fun c => c.2.2)) := by
  rw [caps, of, lookup_foldl_appendTo, lookup_foldl_appendTo, lookup_foldl_appendTo]

theorem orList_perm {a a' b b' : List κ} (ha : a'.Perm a) (hb : b'.Perm b) :
    (orList a' b').Perm (orList a b) := by
  rw [orList, orList]
  by_cases h : a = []
  · rw [h] at ha
    rw [if_neg (not_not_intro h), if_neg (not_not_intro ha.eq_nil)]
    exact hb
  · have h' : a' ≠ [] := by
      rintro rfl
      exact h ha.symm.eq_nil
    rw [if_pos h, if_pos h']
    exact ha

theorem caps_perm {samples samples' : List (Text × Text × κ)} (h : samples'.Perm samples)
    (sector market : Text) :
    ((of samples').caps sector market).Perm ((of samples).caps sector market) := by
  rw [caps_of, caps_of]
  exact orList_perm ((h.filter _).map _) (orList_perm ((h.filter _).map _) ((h.filter _).map _))

end CapPools

/-- The row has no cap and is open to an estimate. -/
def Security.IsGap (s : Security) : Prop :=
  s.marketCap = none ∧ s.dataSource = text "static_master"

instance (s : Security) : Decidable s.IsGap := inferInstanceAs (Decidable (_ ∧ _))

namespace CapNumbers

variable {κ : Type} (A : CapNumbers κ)

/-- The cap that a row brings into the pools, with sector and market. -/
def sample (s : Security) : Except Exn (Option (Text × Text × κ)) :=
  if s.dataSource = text "yahoo_finance" then
    (present s.marketCap).mapM fun cap => (fun cap => (s.sector, s.market, cap)) <$> A.read cap
  else return none

def estimate (samples : List (Text × Text × κ)) (s : Security) : Security :=
  if s.marketCap ≠ none then s
  else if s.dataSource ≠ text "static_master" then s
  else
    match (CapPools.of samples).caps s.sector s.market with
    | [] => s
    | cap :: caps => { s with
        marketCap := some (A.write (A.median (cap :: caps)))
        dataSource := text "estimated" }

variable {A}

theorem estimate_of_not_gap {s : Security} (h : ¬ s.IsGap) (samples : List (Text × Text × κ)) :
    A.estimate samples s = s := by
  rw [estimate]
  split
  · rfl
  · rename_i hcap
    rw [if_pos fun hsource => h ⟨not_not.mp hcap, hsource⟩]

theorem estimate_of_gap {s : Security} (h : s.IsGap) (samples : List (Text × Text × κ)) :
    A.estimate samples s =
      match (CapPools.of samples).caps s.sector s.market with
      | [] => s
      | cap :: caps => { s with
          marketCap := some (A.write (A.median (cap :: caps)))
          dataSource := text "estimated" } := by
  rw [estimate, if_neg (not_not_intro h.1), if_neg (not_not_intro h.2)]

theorem sample_of_gap {s : Security} (h : s.IsGap) : A.sample s = .ok none := by
  rw [sample, if_neg]
  · rfl
  · rw [h.2]
    decide

theorem sample_eq_some_iff {s : Security} {c : Text × Text × κ} :
    A.sample s = .ok (some c) ↔ s.dataSource = text "yahoo_finance" ∧
      ∃ x, s.marketCap = some x ∧ x.truthy = true ∧ A.read x = .ok c.2.2 ∧
        s.sector = c.1 ∧ s.market = c.2.1 := by
  rw [sample]
  by_cases hsource : s.dataSource = text "yahoo_finance"
  · rw [if_pos hsource, and_iff_right hsource]
    cases hpresent : present s.marketCap with
    | none =>
        refine iff_of_false nofun ?_
        rintro ⟨x, hcap, htruthy, -⟩
        rw [present, hcap, Option.filter_some, if_pos htruthy] at hpresent
        cases hpresent
    | some x =>
        obtain ⟨hcap, htruthy⟩ := Option.filter_eq_some_iff.mp hpresent
        rw [Option.mapM_some]
        cases hread : A.read x with
        | error e =>
            refine iff_of_false nofun ?_
            rintro ⟨x', hcap', -, hread', -⟩
            cases hcap.symm.trans hcap'
            cases hread.symm.trans hread'
        | ok v =>
            constructor
            · intro h
              cases h
              exact ⟨x, hcap, htruthy, hread, rfl, rfl⟩
            · obtain ⟨sector, market, q⟩ := c
              rintro ⟨x', hcap', -, hread', rfl, rfl⟩
              cases hcap.symm.trans hcap'
              cases hread.symm.trans hread'
              rfl
  · rw [if_neg hsource]
    exact iff_of_false nofun fun h => hsource h.1

/-- What is estimated does not come from Yahoo. -/
theorem sample_estimate (samples : List (Text × Text × κ)) (s : Security) :
    A.sample (A.estimate samples s) = A.sample s := by
  by_cases h : s.IsGap
  · rw [estimate_of_gap h, sample_of_gap h]
    split
    · exact sample_of_gap h
    · rw [sample, if_neg]
      · rfl
      · change text "estimated" ≠ text "yahoo_finance"
        decide
  · rw [estimate_of_not_gap h]

theorem estimate_estimate (samples : List (Text × Text × κ)) (s : Security) :
    A.estimate samples (A.estimate samples s) = A.estimate samples s := by
  by_cases h : s.IsGap
  · cases hcaps : (CapPools.of samples).caps s.sector s.market with
    | nil =>
        have hsame : A.estimate samples s = s := by rw [estimate_of_gap h, hcaps]
        rw [hsame, hsame]
    | cons cap caps =>
        apply estimate_of_not_gap
        rw [estimate_of_gap h, hcaps]
        exact fun hgap => absurd hgap.1 nofun
  · rw [estimate_of_not_gap h, estimate_of_not_gap h]

variable (A) in
def imputation : Imputation Exn Security (Text × Text × κ) where
  sample := A.sample
  fill := A.estimate
  sample_fill := sample_estimate
  fill_fill := estimate_estimate

variable (A) in
/-- `_apply_sector_median_estimates`. -/
def applySectorMedianEstimates (securities : List Security) : Except Exn (List Security) :=
  A.imputation.run securities

theorem applySectorMedianEstimates_again {securities out : List Security}
    (h : A.applySectorMedianEstimates securities = .ok out) :
    A.applySectorMedianEstimates out = .ok out :=
  Imputation.run_run h

/-- A median that does not look at the order of its pool leaves estimates that do not look at the
order of the rows. -/
theorem estimate_of_perm
    (hmedian : ∀ caps caps' : List κ, caps'.Perm caps → A.median caps' = A.median caps)
    (samples samples' : List (Text × Text × κ)) (h : samples'.Perm samples) :
    A.estimate samples' = A.estimate samples := by
  funext s
  by_cases hgap : s.IsGap
  · have hperm := CapPools.caps_perm h s.sector s.market
    rw [estimate_of_gap hgap, estimate_of_gap hgap]
    cases hcaps : (CapPools.of samples).caps s.sector s.market with
    | nil =>
        rw [hcaps] at hperm
        rw [hperm.eq_nil]
    | cons cap caps =>
        rw [hcaps] at hperm
        cases hcaps' : (CapPools.of samples').caps s.sector s.market with
        | nil =>
            rw [hcaps'] at hperm
            exact absurd hperm.nil_eq nofun
        | cons cap' caps' =>
            rw [hcaps'] at hperm
            dsimp only
            rw [hmedian _ _ hperm]
  · rw [estimate_of_not_gap hgap, estimate_of_not_gap hgap]

/-! ### Floats -/

def floats : CapNumbers Python.Float where
  read := Number.toFloat
  median := Python.median
  write := .float

theorem fallbackCaps_eq (caps : List (Text × Text × Python.Float)) (sector market : Text) :
    fallbackCaps caps sector market = (CapPools.of caps).caps sector market := by
  have hboth : (caps.filter fun c => c.1 = sector && c.2.1 = market) =
      caps.filter fun c => (c.1, c.2.1) = (sector, market) := by
    refine List.filter_congr fun c _ => ?_
    rw [← Bool.decide_and, decide_eq_decide, Prod.mk.injEq]
  rw [fallbackCaps, CapPools.caps_of, ← hboth]
  simp only [CapPools.orList, ne_eq, List.map_eq_nil_iff]
  split
  · rfl
  · split
    · rfl
    · rfl

/-- The pass of `build_real_universe` is that of the pools over floats. -/
theorem applySectorMedianEstimates_floats (securities : List Security) :
    floats.applySectorMedianEstimates securities =
      NexusBackend.applySectorMedianEstimates securities := by
  have hfill : floats.estimate = fun samples s => s.estimate samples := by
    funext samples s
    rw [Security.estimate]
    by_cases hgap : s.IsGap
    · rw [estimate_of_gap hgap, fallbackCaps_eq, if_neg]
      · split
        · rename_i hcaps
          rw [hcaps]
        · rename_i hcaps
          rw [hcaps]
          rfl
      · exact fun h => h.elim (absurd hgap.1) (absurd hgap.2)
    · rw [estimate_of_not_gap hgap, if_pos]
      exact not_and_or.mp hgap
  change (yahooCaps securities >>= fun caps =>
    Except.ok (securities.map (floats.estimate caps))) = _
  rw [hfill]
  rfl

/-- The pass over floats settles in one run, whatever it rounds. -/
theorem applySectorMedianEstimates_settles {securities out : List Security}
    (h : NexusBackend.applySectorMedianEstimates securities = .ok out) :
    NexusBackend.applySectorMedianEstimates out = .ok out := by
  rw [← applySectorMedianEstimates_floats] at h ⊢
  exact applySectorMedianEstimates_again h

end CapNumbers

/-! ### Exact rationals -/

/-- The rational that a number denotes. -/
def exactValue : Number → Except Exn ℚ
  | .int n => .ok n
  | .float (.finite q) => .ok q
  | .float _ => raise .valueError

def CapNumbers.rationals : CapNumbers ℚ where
  read := exactValue
  median := exactMedian
  write q := .float (.finite q)

/-- The cap of the row, where it has one, is a rational. -/
def Security.HasExactCap (s : Security) : Prop :=
  ∀ x, s.marketCap = some x → ∃ q, exactValue x = .ok q

namespace SectorMedians

open CapNumbers

/-- The caps from Yahoo that are not zero, of the rows that `P` selects. -/
def yahooPool (rows : List Security) (P : Security → Prop) : Set ℚ :=
  {q | q ≠ 0 ∧ ∃ r ∈ rows, r.dataSource = text "yahoo_finance" ∧ P r ∧
    ∃ x, r.marketCap = some x ∧ exactValue x = .ok q}

open Classical in
/-- The first pool of a row that is not empty: of its sector and market, of its sector, of its
market. -/
noncomputable def firstPool (rows : List Security) (s : Security) : Set ℚ :=
  if (yahooPool rows fun r => r.sector = s.sector ∧ r.market = s.market).Nonempty then
    yahooPool rows fun r => r.sector = s.sector ∧ r.market = s.market
  else if (yahooPool rows fun r => r.sector = s.sector).Nonempty then
    yahooPool rows fun r => r.sector = s.sector
  else yahooPool rows fun r => r.market = s.market

/-- What becomes of a row: only a gap is filled, by a cap within the bounds of its first pool. -/
structure EstimatedFrom (rows : List Security) (s t : Security) : Prop where
  kept : ¬ s.IsGap → t = s
  unfilled : s.IsGap → firstPool rows s = ∅ → t = s
  filled : s.IsGap → (firstPool rows s).Nonempty → ∃ cap least greatest : ℚ,
    t = { s with marketCap := some (.float (.finite cap)), dataSource := text "estimated" } ∧
    IsLeast (firstPool rows s) least ∧ IsGreatest (firstPool rows s) greatest ∧
    least ≤ cap ∧ cap ≤ greatest

theorem truthy_iff {x : Number} {q : ℚ} (h : exactValue x = .ok q) :
    x.truthy = true ↔ q ≠ 0 := by
  cases x with
  | int n =>
      cases h
      simp [Number.truthy]
  | float x =>
      cases x with
      | finite p =>
          cases h
          simp [Number.truthy]
      | inf negative => cases h
      | nan => cases h

/-- The samples that `P` selects by sector and market make up its pool. -/
theorem mem_pool_iff {rows : List Security} {samples : List (Text × Text × ℚ)}
    (h : rationals.imputation.samples rows = .ok samples) (P : Text → Text → Prop)
    [∀ sector market, Decidable (P sector market)] {q : ℚ} :
    q ∈ (samples.filter fun c => P c.1 c.2.1).map (fun c => c.2.2) ↔
      q ∈ yahooPool rows fun r => P r.sector r.market := by
  rw [List.mem_map]
  constructor
  · rintro ⟨c, hc, rfl⟩
    obtain ⟨hmem, hP⟩ := List.mem_filter.mp hc
    obtain ⟨r, hr, hsample⟩ := (Imputation.mem_samples_iff h).mp hmem
    obtain ⟨hsource, x, hcap, htruthy, hread, hsector, hmarket⟩ :=
      sample_eq_some_iff.mp hsample
    rw [← hsector, ← hmarket] at hP
    exact ⟨(truthy_iff hread).mp htruthy, r, hr, hsource, of_decide_eq_true hP, x, hcap, hread⟩
  · rintro ⟨hq, r, hr, hsource, hP, x, hcap, hread⟩
    have hsample : rationals.sample r = .ok (some (r.sector, r.market, q)) :=
      sample_eq_some_iff.mpr ⟨hsource, x, hcap, (truthy_iff hread).mpr hq, hread, rfl, rfl⟩
    refine ⟨(r.sector, r.market, q), List.mem_filter.mpr ⟨?_, decide_eq_true hP⟩, rfl⟩
    exact (Imputation.mem_samples_iff h).mpr ⟨r, hr, hsample⟩

theorem nonempty_iff {pool : Set ℚ} {caps : List ℚ} (h : ∀ q, q ∈ caps ↔ q ∈ pool) :
    pool.Nonempty ↔ caps ≠ [] := by
  constructor
  · rintro ⟨q, hq⟩ rfl
    exact List.not_mem_nil ((h q).mpr hq)
  · intro hne
    obtain ⟨q, hq⟩ := List.exists_mem_of_ne_nil caps hne
    exact ⟨q, (h q).mp hq⟩

/-- `caps` holds the first pool of a row. -/
theorem mem_caps_iff {rows : List Security} {samples : List (Text × Text × ℚ)}
    (h : rationals.imputation.samples rows = .ok samples) (s : Security) (q : ℚ) :
    q ∈ (CapPools.of samples).caps s.sector s.market ↔ q ∈ firstPool rows s := by
  have hboth (q : ℚ) := mem_pool_iff h (q := q) fun sector market =>
    sector = s.sector ∧ market = s.market
  have hsector (q : ℚ) := mem_pool_iff h (q := q) fun sector market => sector = s.sector
  have hmarket (q : ℚ) := mem_pool_iff h (q := q) fun sector market => market = s.market
  rw [CapPools.caps_of]
  simp only [Prod.mk.injEq]
  rw [CapPools.orList, CapPools.orList, firstPool]
  by_cases hfirst : (yahooPool rows fun r => r.sector = s.sector ∧ r.market = s.market).Nonempty
  · rw [if_pos hfirst, if_pos ((nonempty_iff hboth).mp hfirst)]
    exact hboth q
  · rw [if_neg hfirst, if_neg (mt (nonempty_iff hboth).mpr hfirst)]
    by_cases hsecond : (yahooPool rows fun r => r.sector = s.sector).Nonempty
    · rw [if_pos hsecond, if_pos ((nonempty_iff hsector).mp hsecond)]
      exact hsector q
    · rw [if_neg hsecond, if_neg (mt (nonempty_iff hsector).mpr hsecond)]
      exact hmarket q

theorem estimatedFrom {rows : List Security} {samples : List (Text × Text × ℚ)}
    (h : rationals.imputation.samples rows = .ok samples) (s : Security) :
    EstimatedFrom rows s (rationals.estimate samples s) := by
  have hmem := mem_caps_iff h s
  have hnonempty := nonempty_iff hmem
  refine ⟨fun hgap => estimate_of_not_gap hgap samples, ?_, ?_⟩
  · intro hgap hempty
    have hcaps : (CapPools.of samples).caps s.sector s.market = [] := by
      by_contra hne
      exact (hnonempty.mpr hne).ne_empty hempty
    rw [estimate_of_gap hgap, hcaps]
  · intro hgap hpool
    have hfinite : (firstPool rows s).Finite :=
      ((CapPools.of samples).caps s.sector s.market).finite_toSet.subset fun q => (hmem q).mpr
    obtain ⟨least, hleast, hlo⟩ := Set.exists_min_image _ id hfinite hpool
    obtain ⟨greatest, hgreatest, hhi⟩ := Set.exists_max_image _ id hfinite hpool
    have hbetween := exactMedian_between (hnonempty.mp hpool)
      (fun q hq => hlo q ((hmem q).mp hq)) (fun q hq => hhi q ((hmem q).mp hq))
    refine ⟨_, least, greatest, ?_, ⟨hleast, hlo⟩, ⟨hgreatest, hhi⟩, hbetween⟩
    rw [estimate_of_gap hgap]
    cases hcaps : (CapPools.of samples).caps s.sector s.market with
    | nil => exact absurd hcaps (hnonempty.mp hpool)
    | cons cap caps => rfl

theorem samples_total {rows : List Security} (h : ∀ s ∈ rows, s.HasExactCap) :
    ∃ samples, rationals.imputation.samples rows = .ok samples := by
  have hsample (s : Security) (hs : s ∈ rows) : ∃ o, rationals.sample s = .ok o := by
    rw [sample]
    split
    · cases hpresent : present s.marketCap with
      | none => exact ⟨none, rfl⟩
      | some x =>
          obtain ⟨q, hq⟩ := h s hs x (present_eq_some hpresent)
          refine ⟨some (s.sector, s.market, q), ?_⟩
          rw [Option.mapM_some]
          change (fun cap => (s.sector, s.market, cap)) <$> exactValue x >>= _ = _
          rw [hq]
          rfl
    · exact ⟨none, rfl⟩
  obtain ⟨options, hoptions⟩ := mapM_ok hsample
  refine ⟨options.reduceOption, ?_⟩
  rw [Imputation.samples]
  change List.reduceOption <$> rows.mapM rationals.sample = _
  rw [hoptions]
  rfl

/-- The law of the pass over exact rationals: what becomes of each row, in whatever order the
rows stand, and that a second pass changes nothing. -/
theorem applySectorMedianEstimates_law {rows : List Security}
    (h : ∀ s ∈ rows, s.HasExactCap) :
    ∃ f : Security → Security,
      rationals.applySectorMedianEstimates rows = .ok (rows.map f) ∧
      (∀ s, EstimatedFrom rows s (f s)) ∧
      (∀ more, more.Perm rows → rationals.applySectorMedianEstimates more = .ok (more.map f)) ∧
      rationals.applySectorMedianEstimates (rows.map f) = .ok (rows.map f) := by
  obtain ⟨samples, hsamples⟩ := samples_total h
  have hrun := Imputation.run_of_samples hsamples
  refine ⟨rationals.estimate samples, hrun, estimatedFrom hsamples, ?_, Imputation.run_run hrun⟩
  intro more hperm
  have hmedian (caps caps' : List ℚ) (hcaps : caps'.Perm caps) :
      rationals.median caps' = rationals.median caps := exactMedian_of_perm hcaps
  exact Imputation.run_of_perm (fun samples samples' => estimate_of_perm hmedian samples samples')
    hperm hsamples

/-- A row from Yahoo and a gap in its sector. -/
theorem applySectorMedianEstimates_law_pair :
    let known : Security := {
      ticker := text "005930", nameKo := none, nameEn := none, aliases := []
      market := text "KRX", sector := text "SEMI", sectorLabel := [], currency := text "KRW"
      sharesOutstanding := none, marketCap := some (.int 10), isSubscribed := false
      dataSource := text "yahoo_finance" }
    let gap : Security := { known with
      ticker := text "000660", marketCap := none, dataSource := text "static_master" }
    ∃ out, rationals.applySectorMedianEstimates [gap, known] = .ok out ∧
      rationals.applySectorMedianEstimates out = .ok out := by
  intro known gap
  have h : ∀ s ∈ [gap, known], s.HasExactCap := by
    intro s hs x hx
    rcases List.mem_pair.mp hs with rfl | rfl
    · cases hx
    · cases hx
      exact ⟨10, rfl⟩
  obtain ⟨f, hrun, -, -, hagain⟩ := applySectorMedianEstimates_law h
  exact ⟨_, hrun, hagain⟩

end SectorMedians
end NexusBackend
