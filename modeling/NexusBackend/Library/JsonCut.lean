import NexusBackend.Library.JsonRoundTrip

/-!
The text of a JSON object that is cut before its last brace is no JSON.
-/
namespace Python
namespace Json

variable {limit : Nat}

theorem feed_rooted {c : Nat} {s : Text} {st : Reader} (hc : c = 123)
    (h : feed limit start (c :: s) = .ok st) : Rooted st := by
  rw [feed_cons] at h
  have hends : Reads (fun st => c = 123 → Rooted st)
      (step limit start c >>= fun st => feed limit st s) :=
    ends_bind (start_reads limit c) fun st hst =>
      ends_foldlM (fun st c h => step_reads limit c h) s hst
  exact hends.1 st h hc

/-- After a complete value there is only blank space. -/
theorem feed_finished {stack : List Frame} {v : Json} {s : Text} {st : Reader}
    (h : feed limit ⟨stack, .finished v⟩ s = .ok st) : ∀ c ∈ s, isBlank c = true := by
  induction s with
  | nil => exact nofun
  | cons c s ih =>
      rw [feed_cons] at h
      cases hc : isBlank c with
      | true =>
          have hstep : step limit ⟨stack, .finished v⟩ c = .ok ⟨stack, .finished v⟩ := if_pos hc
          rw [hstep, ok_bind] at h
          exact List.forall_mem_cons.mpr ⟨hc, ih h⟩
      | false =>
          have hstep : step limit ⟨stack, .finished v⟩ c = decodeError :=
            if_neg (Bool.eq_false_iff.mp hc)
          rw [hstep] at h
          cases h

theorem complete_open {v w : Json} {stack : List Frame} {st : Reader} (hstack : stack ≠ [])
    (h : complete v stack = .ok st) : st.mode ≠ .finished w := by
  cases stack with
  | nil => exact absurd rfl hstack
  | cons frame rest =>
      cases frame with
      | arr items =>
          cases h
          exact nofun
      | member pairs key =>
          cases h
          exact nofun
      | obj pairs => cases h

/-- A reader inside an object has not finished. -/
theorem finish_rooted {st : Reader} {v : Json} (hroot : Rooted st) (h : finish st = .ok v) :
    st.mode = .finished v := by
  obtain ⟨st', hflush, hfinish⟩ := bind_eq_ok_iff.mp h
  have hmode : st'.mode = .finished v := by
    split at hfinish
    · rename_i w hw
      rw [hw, Except.ok.inj hfinish]
    · cases hfinish
  obtain ⟨stack, mode⟩ := st
  cases mode with
  | token read =>
      obtain ⟨w, -, hcomplete⟩ := bind_eq_ok_iff.mp hflush
      refine absurd hmode (complete_open ?_ hcomplete)
      rintro rfl
      cases hroot
  | _ =>
      cases hflush
      exact hmode

/-- The text of an object does not decode where more than blank space is cut off. -/
theorem loads_cut {p q : Text} {v w : Json} (hp : p.head? = some 123)
    (h : loads limit (p ++ q) = .ok v) (hq : ∃ c ∈ q, isBlank c = false) :
    loads limit p ≠ .ok w := by
  intro hcut
  obtain ⟨s, rfl⟩ := List.head?_eq_some_iff.mp hp
  have hmark : ¬ ((123 :: s : Text).head? = some 0xfeff) := by
    rw [List.head?_cons]
    decide
  have hmark' : ¬ ((123 :: s ++ q : Text).head? = some 0xfeff) := hmark
  rw [loads, if_neg hmark] at hcut
  rw [loads, if_neg hmark'] at h
  obtain ⟨st, hfeed, hfinish⟩ := bind_eq_ok_iff.mp hcut
  rw [feed_append_ok hfeed] at h
  obtain ⟨st', hrest, -⟩ := bind_eq_ok_iff.mp h
  have hmode := finish_rooted (feed_rooted rfl hfeed) hfinish
  obtain ⟨stack, mode⟩ := st
  obtain rfl := hmode
  obtain ⟨c, hc, hblank⟩ := hq
  rw [feed_finished hrest c hc] at hblank
  cases hblank

end Json
end Python
