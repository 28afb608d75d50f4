import Mathlib.Data.List.Basic

/-!
Labelled machines and the rules for their runs.

A label carries everything the environment chooses at a step; a step that the
state does not allow has no result. A run returns the state it ends in and the
events of all its steps, in order. The rules below turn a fact about one step
into a fact about every run. Fairness and infinite runs are not covered.
-/
namespace Transition

/-- States `σ`, labels `ℓ`, events `ε`. -/
structure Machine (σ ℓ ε : Type*) where
  step : σ → ℓ → Option (σ × List ε)

namespace Machine

variable {σ ℓ ε : Type*} (m : Machine σ ℓ ε)

def run : σ → List ℓ → Option (σ × List ε)
  | s, [] => some (s, [])
  | s, l :: ls =>
      (m.step s l).bind fun (s', es) => (run s' ls).map fun (t, fs) => (t, es ++ fs)

/-- `P` holds at every state and label the run comes to. -/
def Along (P : σ → ℓ → Prop) : σ → List ℓ → Prop
  | _, [] => True
  | s, l :: ls => P s l ∧ ∀ s' es, m.step s l = some (s', es) → Along P s' ls

@[simp] theorem run_nil (s : σ) : m.run s [] = some (s, []) := rfl

theorem run_cons (s : σ) (l : ℓ) (ls : List ℓ) {t : σ} {tr : List ε} :
    m.run s (l :: ls) = some (t, tr) ↔
      ∃ s' es fs, m.step s l = some (s', es) ∧ m.run s' ls = some (t, fs) ∧ tr = es ++ fs := by
  simp only [run, Option.bind_eq_some_iff, Option.map_eq_some_iff, Prod.exists, Prod.mk.injEq]
  constructor
  · rintro ⟨s', es, hs, _, fs, hr, rfl, rfl⟩
    exact ⟨s', es, fs, hs, hr, rfl⟩
  · rintro ⟨s', es, fs, hs, hr, rfl⟩
    exact ⟨s', es, hs, t, fs, hr, rfl, rfl⟩

theorem run_append {s t : σ} {ls ks : List ℓ} {tr : List ε} :
    m.run s (ls ++ ks) = some (t, tr) ↔
      ∃ s' es fs, m.run s ls = some (s', es) ∧ m.run s' ks = some (t, fs) ∧ tr = es ++ fs := by
  induction ls generalizing s tr with
  | nil => simp [Prod.ext_iff]
  | cons l ls ih =>
      simp only [List.cons_append, run_cons, ih]
      constructor
      · rintro ⟨s', es, fs, hs, ⟨s'', es', fs', hr, hk, rfl⟩, rfl⟩
        exact ⟨s'', es ++ es', fs', ⟨s', es, es', hs, hr, rfl⟩, hk, by simp⟩
      · rintro ⟨s'', es', fs', ⟨s', es, fs, hs, hr, rfl⟩, hk, rfl⟩
        exact ⟨s', es, fs ++ fs', hs, ⟨s'', fs, fs', hr, hk, rfl⟩, by simp⟩

variable {m}

/-- What one step keeps, where `C` holds, the steps of a run all of which meet `C` keep.
The invariant may speak of the events so far. -/
theorem run_invariant_along {C : σ → ℓ → Prop} {I : σ → List ε → Prop}
    (hstep : ∀ s l s' es tr, C s l → I s tr → m.step s l = some (s', es) → I s' (tr ++ es))
    {s t : σ} {ls : List ℓ} {tr past : List ε} (h0 : I s past)
    (hC : m.Along C s ls) (hr : m.run s ls = some (t, tr)) : I t (past ++ tr) := by
  induction ls generalizing s tr past with
  | nil =>
      obtain ⟨rfl, rfl⟩ : s = t ∧ [] = tr := by simpa using hr
      simpa using h0
  | cons l ls ih =>
      obtain ⟨s', es, fs, hs, hrest, rfl⟩ := (m.run_cons s l ls).mp hr
      have h1 := hstep s l s' es past hC.1 h0 hs
      simpa only [List.append_assoc] using ih h1 (hC.2 s' es hs) hrest

theorem along_of_forall {P : σ → ℓ → Prop} (h : ∀ s l, P s l) (s : σ) (ls : List ℓ) :
    m.Along P s ls := by
  induction ls generalizing s with
  | nil => trivial
  | cons l ls ih => exact ⟨h s l, fun s' _ _ => ih s'⟩

theorem along_cons_of_step {P : σ → ℓ → Prop} {s s' : σ} {l : ℓ} {ls : List ℓ} {es : List ε}
    (hs : m.step s l = some (s', es)) : m.Along P s (l :: ls) ↔ P s l ∧ m.Along P s' ls := by
  constructor
  · rintro ⟨hl, hrest⟩
    exact ⟨hl, hrest s' es hs⟩
  · rintro ⟨hl, hrest⟩
    refine ⟨hl, fun s'' es' h => ?_⟩
    obtain ⟨rfl, -⟩ := Prod.mk.inj (Option.some.inj (hs.symm.trans h))
    exact hrest

theorem along_cons_of_none {P : σ → ℓ → Prop} {s : σ} {l : ℓ} {ls : List ℓ}
    (hs : m.step s l = none) : m.Along P s (l :: ls) ↔ P s l :=
  ⟨fun h => h.1, fun h => ⟨h, fun s' es h' => by rw [hs] at h'; cases h'⟩⟩

instance decidableAlong (P : σ → ℓ → Prop) [∀ s l, Decidable (P s l)] :
    (s : σ) → (ls : List ℓ) → Decidable (m.Along P s ls)
  | _, [] => isTrue trivial
  | s, l :: ls =>
      match hs : m.step s l with
      | none => decidable_of_iff (P s l) (along_cons_of_none hs).symm
      | some (s', _) =>
          have := decidableAlong P s' ls
          decidable_of_iff (P s l ∧ m.Along P s' ls) (along_cons_of_step hs).symm

theorem along_and {P Q : σ → ℓ → Prop} {s : σ} {ls : List ℓ} (hP : m.Along P s ls)
    (hQ : m.Along Q s ls) : m.Along (fun s l => P s l ∧ Q s l) s ls := by
  induction ls generalizing s with
  | nil => trivial
  | cons l ls ih => exact ⟨⟨hP.1, hQ.1⟩, fun s' es hs => ih (hP.2 s' es hs) (hQ.2 s' es hs)⟩

/-- The invariant rule without a condition on the steps. -/
theorem run_invariant {I : σ → List ε → Prop}
    (hstep : ∀ s l s' es tr, I s tr → m.step s l = some (s', es) → I s' (tr ++ es))
    {s t : σ} {ls : List ℓ} {tr : List ε} (h0 : I s [])
    (hr : m.run s ls = some (t, tr)) : I t tr := by
  have hC : m.Along (fun _ _ => True) s ls := along_of_forall (fun _ _ => trivial) s ls
  have h := run_invariant_along (fun s l s' es tr _ => hstep s l s' es tr) h0 hC hr
  simpa using h

/-- The invariant rule for invariants that speak of the labels so far. -/
theorem run_invariant_labels {I : σ → List ℓ → Prop}
    (hstep : ∀ s l s' es past, I s past → m.step s l = some (s', es) → I s' (past ++ [l]))
    {s t : σ} {ls past : List ℓ} {tr : List ε} (h0 : I s past)
    (hr : m.run s ls = some (t, tr)) : I t (past ++ ls) := by
  induction ls generalizing s tr past with
  | nil =>
      obtain ⟨rfl, rfl⟩ : s = t ∧ [] = tr := by simpa using hr
      simpa using h0
  | cons l ls ih =>
      obtain ⟨s', es, fs, hs, hrest, -⟩ := (m.run_cons s l ls).mp hr
      have h1 := ih (hstep s l s' es past h0 hs) hrest
      rwa [List.append_assoc, List.singleton_append] at h1

/-- A safety property of the events, step by step: no event of the run is bad
exactly when no step of it is one of those that emit a bad event. -/
theorem run_avoids_iff {I : σ → Prop} {Bad : ε → Prop} {Avoids : σ → ℓ → Prop}
    (hkeep : ∀ s l s' es, I s → m.step s l = some (s', es) → I s')
    (hstep : ∀ s l s' es, I s → m.step s l = some (s', es) →
      ((∀ e ∈ es, ¬ Bad e) ↔ Avoids s l))
    {s t : σ} {ls : List ℓ} {tr : List ε} (h0 : I s) (hr : m.run s ls = some (t, tr)) :
    (∀ e ∈ tr, ¬ Bad e) ↔ m.Along Avoids s ls := by
  induction ls generalizing s tr with
  | nil =>
      obtain ⟨rfl, rfl⟩ : s = t ∧ [] = tr := by simpa using hr
      simp [Along]
  | cons l ls ih =>
      obtain ⟨s', es, fs, hs, hrest, rfl⟩ := (m.run_cons s l ls).mp hr
      have hnext := ih (hkeep s l s' es h0 hs) hrest
      simp only [List.mem_append, or_imp, forall_and]
      rw [hstep s l s' es h0 hs, hnext]
      exact (along_cons_of_step hs).symm

/-- A condition on the labels alone holds along a run where it holds of each label. -/
theorem along_iff_forall {P : ℓ → Prop} {s t : σ} {ls : List ℓ} {tr : List ε}
    (hr : m.run s ls = some (t, tr)) : m.Along (fun _ l => P l) s ls ↔ ∀ l ∈ ls, P l := by
  induction ls generalizing s tr with
  | nil => simp [Along]
  | cons l ls ih =>
      obtain ⟨s', es, fs, hs, hrest, rfl⟩ := (m.run_cons s l ls).mp hr
      rw [along_cons_of_step hs, ih hrest, List.forall_mem_cons]

variable (m) in
/-- `P` holds in every state of the run, the first and the last included. -/
def Throughout (P : σ → Prop) : σ → List ℓ → Prop
  | s, [] => P s
  | s, l :: ls => P s ∧ ∀ s' es, m.step s l = some (s', es) → Throughout P s' ls

theorem throughout_last {P : σ → Prop} {s t : σ} {ls : List ℓ} {tr : List ε}
    (h : m.Throughout P s ls) (hr : m.run s ls = some (t, tr)) : P t := by
  induction ls generalizing s tr with
  | nil =>
      obtain ⟨rfl, rfl⟩ : s = t ∧ [] = tr := by simpa using hr
      exact h
  | cons l ls ih =>
      obtain ⟨s', es, fs, hs, hrest, -⟩ := (m.run_cons s l ls).mp hr
      exact ih (h.2 s' es hs) hrest

/-- What every step keeps along a run whose steps meet `C` holds in every state of it. -/
theorem throughout_of_invariant_along {I P : σ → Prop} {C : σ → ℓ → Prop}
    (hIP : ∀ s, I s → P s)
    (hstep : ∀ s l s' es, C s l → I s → m.step s l = some (s', es) → I s')
    {s : σ} (ls : List ℓ) (h0 : I s) (hC : m.Along C s ls) : m.Throughout P s ls := by
  induction ls generalizing s with
  | nil => exact hIP s h0
  | cons l ls ih =>
      refine ⟨hIP s h0, fun s' es hs => ?_⟩
      exact ih (hstep s l s' es hC.1 h0 hs) (hC.2 s' es hs)

theorem throughout_of_invariant {I P : σ → Prop} (hIP : ∀ s, I s → P s)
    (hstep : ∀ s l s' es, I s → m.step s l = some (s', es) → I s')
    {s : σ} (ls : List ℓ) (h0 : I s) : m.Throughout P s ls :=
  throughout_of_invariant_along (C := fun _ _ => True) hIP
    (fun s l s' es _ => hstep s l s' es) ls h0 (along_of_forall (fun _ _ => trivial) s ls)

/-- A state property that a step keeps exactly under a condition on the step holds in
every state of a run exactly when every step meets the condition. -/
theorem throughout_iff_along {I P : σ → Prop} {C : σ → ℓ → Prop}
    (htotal : ∀ s l, ∃ s' es, m.step s l = some (s', es))
    (hkeep : ∀ s l s' es, I s → m.step s l = some (s', es) → I s')
    (hstep : ∀ s l s' es, I s → P s → m.step s l = some (s', es) → (P s' ↔ C s l))
    {s : σ} (ls : List ℓ) (hI : I s) (hP : P s) :
    m.Throughout P s ls ↔ m.Along C s ls := by
  induction ls generalizing s with
  | nil => exact iff_of_true hP trivial
  | cons l ls ih =>
      obtain ⟨s', es, hs⟩ := htotal s l
      have hI' := hkeep s l s' es hI hs
      have hiff := hstep s l s' es hI hP hs
      rw [along_cons_of_step hs]
      constructor
      · intro h
        have hrest := h.2 s' es hs
        have hP' : P s' := by
          cases ls with
          | nil => exact hrest
          | cons _ _ => exact hrest.1
        exact ⟨hiff.mp hP', (ih hI' hP').mp hrest⟩
      · intro h
        refine ⟨hP, fun t fs ht => ?_⟩
        obtain ⟨rfl, -⟩ := Prod.mk.inj (Option.some.inj (hs.symm.trans ht))
        exact (ih hI' (hiff.mpr h.1)).mpr h.2

/-! ### Events that answer to the past -/

/-- Each event of the list stands in the relation `P` to the events before it. -/
def Grounded (P : List ε → ε → Prop) : List ε → List ε → Prop
  | _, [] => True
  | past, e :: es => P past e ∧ Grounded P (past ++ [e]) es

theorem grounded_append {P : List ε → ε → Prop} {past es fs : List ε} :
    Grounded P past (es ++ fs) ↔ Grounded P past es ∧ Grounded P (past ++ es) fs := by
  induction es generalizing past with
  | nil => simp [Grounded]
  | cons e es ih => simp [Grounded, ih, and_assoc]

theorem Grounded.split {P : List ε → ε → Prop} {pre post : List ε} {e : ε}
    (h : Grounded P [] (pre ++ e :: post)) : P pre e := (grounded_append.mp h).2.1

/-- Each event of a grounded list has a place in it. -/
theorem Grounded.of_mem {P : List ε → ε → Prop} {tr : List ε} {e : ε}
    (h : Grounded P [] tr) (he : e ∈ tr) : ∃ pre post, tr = pre ++ e :: post ∧ P pre e := by
  obtain ⟨pre, post, rfl⟩ := List.append_of_mem he
  exact ⟨pre, post, rfl, h.split⟩

variable {τ k η : Type*}

/-! ### One machine as a view of another -/

/-- What a step of a machine is in the view of another one: one of its steps, or none at all
where the label means nothing to it. -/
def Shows (n : Machine τ k ε) (s : τ) (l : Option k) (t : τ) (es : List ε) : Prop :=
  match l with
  | some l => n.step s l = some (t, es)
  | none => t = s ∧ es = []

/-- If every step is one in the view, or shows nothing there, every run is a run there. -/
theorem run_shows {n : Machine τ k ε} {view : σ → τ} {label : ℓ → Option k} {I : σ → Prop}
    (hstep : ∀ s l t es, I s → m.step s l = some (t, es) →
      I t ∧ n.Shows (view s) (label l) (view t) es)
    {s t : σ} {ls : List ℓ} {tr : List ε} (h0 : I s) (hr : m.run s ls = some (t, tr)) :
    I t ∧ n.run (view s) (ls.filterMap label) = some (view t, tr) := by
  induction ls generalizing s tr with
  | nil =>
      obtain ⟨rfl, rfl⟩ : s = t ∧ [] = tr := by simpa using hr
      exact ⟨h0, rfl⟩
  | cons l ls ih =>
      obtain ⟨s', es, fs, hs, hrest, rfl⟩ := (m.run_cons s l ls).mp hr
      obtain ⟨hI, hshows⟩ := hstep s l s' es h0 hs
      obtain ⟨hlast, hview⟩ := ih hI hrest
      refine ⟨hlast, ?_⟩
      cases hl : label l with
      | none =>
          rw [hl] at hshows
          obtain ⟨hsame, rfl⟩ := hshows
          rw [List.filterMap_cons_none hl, ← hsame]
          exact hview
      | some k =>
          rw [hl] at hshows
          rw [List.filterMap_cons_some hl]
          exact (n.run_cons _ _ _).mpr ⟨_, _, _, hshows, hview, rfl⟩

/-! ### Two machines side by side -/

/-- Either machine may take the next step. -/
def interleave (m : Machine σ ℓ ε) (n : Machine τ k η) : Machine (σ × τ) (ℓ ⊕ k) (ε ⊕ η) where
  step s
    | .inl l => (m.step s.1 l).map fun (s', es) => ((s', s.2), es.map .inl)
    | .inr l => (n.step s.2 l).map fun (s', es) => ((s.1, s'), es.map .inr)

def lefts {α β : Type*} (xs : List (α ⊕ β)) : List α := xs.filterMap Sum.getLeft?

def rights {α β : Type*} (xs : List (α ⊕ β)) : List β := xs.filterMap Sum.getRight?

theorem lefts_append {α β : Type*} (xs ys : List (α ⊕ β)) :
    lefts (xs ++ ys) = lefts xs ++ lefts ys := List.filterMap_append

theorem rights_append {α β : Type*} (xs ys : List (α ⊕ β)) :
    rights (xs ++ ys) = rights xs ++ rights ys := List.filterMap_append

theorem lefts_map_inl {α β : Type*} (xs : List α) : lefts (xs.map (Sum.inl (β := β))) = xs := by
  rw [lefts, List.filterMap_map]
  exact List.filterMap_some

theorem rights_map_inl {α β : Type*} (xs : List α) :
    rights (xs.map (Sum.inl (β := β))) = [] := by
  simp [rights, List.filterMap_map]

theorem lefts_map_inr {α β : Type*} (xs : List β) :
    lefts (xs.map (Sum.inr (α := α))) = [] := by
  simp [lefts, List.filterMap_map]

theorem rights_map_inr {α β : Type*} (xs : List β) :
    rights (xs.map (Sum.inr (α := α))) = xs := by
  rw [rights, List.filterMap_map]
  exact List.filterMap_some

/-- A run of both is a run of each. -/
theorem run_interleave {m : Machine σ ℓ ε} {n : Machine τ k η} {s t : σ × τ}
    {ls : List (ℓ ⊕ k)} {tr : List (ε ⊕ η)} (h : (m.interleave n).run s ls = some (t, tr)) :
    m.run s.1 (lefts ls) = some (t.1, lefts tr) ∧
      n.run s.2 (rights ls) = some (t.2, rights tr) := by
  induction ls generalizing s tr with
  | nil =>
      obtain ⟨rfl, rfl⟩ : s = t ∧ [] = tr := by simpa using h
      exact ⟨rfl, rfl⟩
  | cons l ls ih =>
      obtain ⟨s', es, fs, hs, hrest, rfl⟩ := (run_cons _ s l ls).mp h
      obtain ⟨hm, hn⟩ := ih hrest
      rw [lefts_append, rights_append]
      cases l with
      | inl l =>
          obtain ⟨⟨s'', es'⟩, hs', he⟩ := Option.map_eq_some_iff.mp hs
          obtain ⟨rfl, rfl⟩ := Prod.mk.inj he
          rw [lefts_map_inl, rights_map_inl]
          exact ⟨(m.run_cons _ _ _).mpr ⟨s'', es', _, hs', hm, rfl⟩, hn⟩
      | inr l =>
          obtain ⟨⟨s'', es'⟩, hs', he⟩ := Option.map_eq_some_iff.mp hs
          obtain ⟨rfl, rfl⟩ := Prod.mk.inj he
          rw [lefts_map_inr, rights_map_inr]
          exact ⟨hm, (n.run_cons _ _ _).mpr ⟨s'', es', _, hs', hn, rfl⟩⟩

theorem mem_lefts_iff {α β : Type*} {xs : List (α ⊕ β)} {a : α} :
    a ∈ lefts xs ↔ .inl a ∈ xs := by
  simp [lefts, List.mem_filterMap, Sum.getLeft?_eq_some_iff]

theorem mem_rights_iff {α β : Type*} {xs : List (α ⊕ β)} {b : β} :
    b ∈ rights xs ↔ .inr b ∈ xs := by
  simp [rights, List.mem_filterMap, Sum.getRight?_eq_some_iff]

end Machine
end Transition
