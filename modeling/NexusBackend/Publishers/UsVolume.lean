import NexusBackend.Library.CounterDeltas
import NexusBackend.Publishers.UsQuotes

/-!
The volumes that `UsPublisher` sends out for one symbol, against the day volumes that the
endpoint reported. A poll without a day volume sets the baseline of its symbol to zero, so the
next report counts again what was counted before.
-/
namespace NexusBackend

open Python

namespace UsPolling

/-- The ticks of a sequence of polls of one symbol. A poll that raises leaves the baselines. -/
def pollQuotes (symbol : Text) : Baselines → List (UtcTime × Meta) → List WireTick
  | _, [] => []
  | lastVolume, (now, m) :: polls =>
      match quoteToTick lastVolume now symbol m with
      | .ok (some (tick, lastVolume')) => tick :: pollQuotes symbol lastVolume' polls
      | _ => pollQuotes symbol lastVolume polls

/-! ### What a poll reports, and what is read of it -/

/-- The day volume that a quote reports, where its field is there and a finite number. -/
def Meta.reported? (m : Meta) : Option ℚ :=
  match m.get (text "regularMarketVolume") with
  | .int n => some n
  | v =>
      match v.toFloat with
      | .ok (.finite q) => some q
      | _ => none

/-- Of a poll that sends a tick: the day volume as it is read, if the quote reports one. -/
def Meta.observed? (m : Meta) : Option (Option Int) :=
  match m.quote with
  | .ok (some quote) => some (m.reported?.map fun _ => quote.dayVolume)
  | _ => none

/-- The reports of all polls. -/
def reports (polls : List (UtcTime × Meta)) : List ℚ := polls.filterMap fun poll => poll.2.reported?

/-- The day volumes as they are read, of the polls that send a tick. -/
def observations (polls : List (UtcTime × Meta)) : List (Option Int) :=
  polls.filterMap fun poll => poll.2.observed?

/-- How far the reports reach beyond the day volumes that are read: what quotes without a price
report before the first of these and after the last. -/
def unread (polls : List (UtcTime × Meta)) : ℚ :=
  Counter.span (reports polls) - (Counter.span (observations polls).reduceOption : Int)

/-- The quotes that send a tick without a day volume make the publisher count again no more than
what the reports reach beyond the day volumes that are read. -/
def GapsCovered (polls : List (UtcTime × Meta)) : Prop :=
  (Counter.recounted none false (observations polls) : ℚ) ≤ unread polls

instance (polls : List (UtcTime × Meta)) : Decidable (GapsCovered polls) :=
  inferInstanceAs (Decidable (_ ≤ _))

/-! ### Reading a day volume -/

/-- `int(x)` of a finite float. -/
def truncate (q : ℚ) : Int := if q < 0 then -⌊-q⌋ else ⌊q⌋

theorem truncate_mono {p q : ℚ} (h : p ≤ q) : truncate p ≤ truncate q := by
  simp only [truncate]
  split_ifs with hp hq hq
  · exact neg_le_neg (Int.floor_mono (neg_le_neg h))
  · have hleft := Int.floor_nonneg.mpr (neg_nonneg.mpr hp.le)
    have hright := Int.floor_nonneg.mpr (not_lt.mp hq)
    omega
  · linarith
  · exact Int.floor_mono h

theorem toFloat_of_falsy {v : Json} (hv : v.truthy = false) {q : ℚ}
    (h : v.toFloat = .ok (.finite q)) : q = 0 := by
  cases v with
  | bool b =>
      cases hv
      cases h
      simp
  | int n =>
      obtain rfl : n = 0 := by simpa [Json.truthy] using hv
      cases h
      rfl
  | float x =>
      cases h
      simpa [Json.truthy] using hv
  | str s =>
      obtain rfl : s = [] := by simpa [Json.truthy] using hv
      cases h
  | _ => cases h

/-- The integer of a finite float. -/
theorem readVolume_finite {x : Except Exn Python.Float} {q : ℚ} (h : x = .ok (.finite q))
    {r : Int}
    (hr : tryExcept (x >>= intOfFloat) [.typeError, .valueError] (fun _ => .ok 0) = .ok r) :
    r = truncate q := by
  subst h
  exact (Except.ok.inj hr).symm

/-- Anything but a finite float reads as zero, if it reads. -/
theorem readVolume_other {x : Except Exn Python.Float} (h : ∀ q, x ≠ .ok (.finite q)) {r : Int}
    (hr : tryExcept (x >>= intOfFloat) [.typeError, .valueError] (fun _ => .ok 0) = .ok r) :
    r = 0 := by
  have hcaught {e : Exn} (h : tryExcept (.error e) [.typeError, .valueError] (fun _ => .ok 0) =
      .ok r) : r = 0 := by
    rw [tryExcept] at h
    split at h
    · exact (Except.ok.inj h).symm
    · cases h
  cases x with
  | error e => exact hcaught hr
  | ok y =>
      cases y with
      | finite q => exact absurd rfl (h q)
      | inf negative => exact hcaught hr
      | nan => exact hcaught hr

/-- A report is read as its float, cut to an integer. -/
theorem dayVolume_reported {m : Meta} (hm : (Json.obj m).Binary) {v : ℚ} {r : Int}
    (hv : m.reported? = some v) (hr : m.dayVolume = .ok r) :
    ∃ q, Python.Float.ofRat v = .finite q ∧ r = truncate q := by
  have hbinary := get_binary hm (text "regularMarketVolume")
  rw [Meta.reported?] at hv
  rw [Meta.dayVolume] at hr
  generalize m.get (text "regularMarketVolume") = field at hv hr hbinary
  split at hv
  · rename_i n
    obtain rfl := Option.some.inj hv
    have hsame : orValue (.int n) (.int 0) = .int n := by
      rw [orValue]
      split
      · rfl
      · rename_i h
        obtain rfl : n = 0 := by simpa [Json.truthy] using h
        rfl
    rw [hsame] at hr
    cases hx : Python.Float.ofRat n with
    | finite q =>
        refine ⟨q, rfl, readVolume_finite ?_ hr⟩
        rw [Json.toFloat, floatOfInt, hx]
    | inf negative =>
        rw [Json.toFloat, floatOfInt, hx] at hr
        cases hr
    | nan => exact absurd hx (ofRat_ne_nan n)
  · rename_i field hint
    split at hv
    · rename_i q hq
      obtain rfl := Option.some.inj hv
      refine ⟨q, ofRat_of_isDyadic (hbinary.toFloat hq), ?_⟩
      rw [orValue] at hr
      split at hr
      · exact readVolume_finite hq hr
      · rename_i hfalsy
        rw [toFloat_of_falsy (by simpa using hfalsy) hq]
        exact readVolume_finite (by decide) hr
    · cases hv

/-- Where nothing is reported, zero is read. -/
theorem dayVolume_unreported {m : Meta} {r : Int} (hv : m.reported? = none)
    (hr : m.dayVolume = .ok r) : r = 0 := by
  rw [Meta.reported?] at hv
  rw [Meta.dayVolume] at hr
  generalize m.get (text "regularMarketVolume") = field at hv hr
  split at hv
  · cases hv
  · split at hv
    · cases hv
    · rename_i hother
      rw [orValue] at hr
      split at hr
      · exact readVolume_other hother hr
      · exact readVolume_finite (q := 0) rfl hr

/-! ### The polls of a symbol -/

theorem quote_dayVolume {m : Meta} {quote : Quote} (h : m.quote = .ok (some quote)) :
    m.dayVolume = .ok quote.dayVolume := by
  rw [Meta.quote] at h
  obtain ⟨price?, -, h⟩ := bind_eq_ok_iff.mp h
  cases price? with
  | none => cases h
  | some price =>
      obtain ⟨previousClose, -, h⟩ := bind_eq_ok_iff.mp h
      obtain ⟨dayVolume, hday, h⟩ := bind_eq_ok_iff.mp h
      cases h
      exact hday

theorem observations_cons_none {now : UtcTime} {m : Meta} (polls : List (UtcTime × Meta))
    (h : m.observed? = none) : observations ((now, m) :: polls) = observations polls :=
  List.filterMap_cons_none h

theorem observations_cons_some {now : UtcTime} {m : Meta} {x : Option Int}
    (polls : List (UtcTime × Meta)) (h : m.observed? = some x) :
    observations ((now, m) :: polls) = x :: observations polls :=
  List.filterMap_cons_some h

/-- The volumes that are sent are the increases of the day volumes as they are read. -/
theorem volumes_pollQuotes (symbol : Text) (lastVolume : Baselines)
    (polls : List (UtcTime × Meta)) :
    (pollQuotes symbol lastVolume polls).map WireTick.volume =
      Counter.increases (lastVolume.lookup symbol) ((observations polls).map (·.getD 0)) := by
  induction polls generalizing lastVolume with
  | nil => rfl
  | cons poll polls ih =>
      obtain ⟨now, m⟩ := poll
      cases hquote : m.quote with
      | error e =>
          have hnone : m.observed? = none := by rw [Meta.observed?, hquote]
          rw [pollQuotes, quoteToTick_of_error hquote, observations_cons_none polls hnone]
          exact ih lastVolume
      | ok quote? =>
          cases quote? with
          | none =>
              have hnone : m.observed? = none := by rw [Meta.observed?, hquote]
              rw [pollQuotes, quoteToTick_of_none hquote, observations_cons_none polls hnone]
              exact ih lastVolume
          | some quote =>
              have hsome : m.observed? = some (m.reported?.map fun _ => quote.dayVolume) := by
                rw [Meta.observed?, hquote]
              have hread : (m.reported?.map fun _ => quote.dayVolume).getD 0 = quote.dayVolume := by
                cases hreport : m.reported? with
                | none => exact (dayVolume_unreported hreport (quote_dayVolume hquote)).symm
                | some v => rfl
              have hrest := ih (lastVolume.insert symbol quote.dayVolume)
              rw [Finmap.lookup_insert] at hrest
              rw [observations_cons_some polls hsome, List.map_cons, hread, Counter.increases,
                ← hrest, pollQuotes, quoteToTick_of_quote hquote]
              rfl

theorem observations_reduceOption (polls : List (UtcTime × Meta)) :
    (observations polls).reduceOption = polls.filterMap fun poll => poll.2.observed?.bind id := by
  rw [observations, List.reduceOption, List.filterMap_filterMap]

/-- Reports that do not decrease are read as day volumes that do not decrease. -/
theorem observations_pairwise {polls : List (UtcTime × Meta)}
    (hbinary : ∀ poll ∈ polls, (Json.obj poll.2).Binary)
    (hreports : (reports polls).Pairwise (· ≤ ·)) :
    (observations polls).reduceOption.Pairwise (· ≤ ·) := by
  rw [observations_reduceOption, List.pairwise_filterMap]
  rw [reports, List.pairwise_filterMap] at hreports
  refine hreports.imp_of_mem ?_
  rintro ⟨now, m⟩ ⟨now', m'⟩ hm hm' hle r hr r' hr'
  have hread {m : Meta} (hm : (Json.obj m).Binary) {r : Int} (hr : m.observed?.bind id = some r) :
      ∃ v, m.reported? = some v ∧ ∃ q, Python.Float.ofRat v = .finite q ∧ r = truncate q := by
    rw [Meta.observed?] at hr
    split at hr
    · rename_i quote hquote
      obtain ⟨v, hv, rfl⟩ := Option.map_eq_some_iff.mp hr
      exact ⟨v, hv, dayVolume_reported hm hv (quote_dayVolume hquote)⟩
    · cases hr
  obtain ⟨v, hv, q, hq, rfl⟩ := hread (hbinary _ hm) hr
  obtain ⟨v', hv', q', hq', rfl⟩ := hread (hbinary _ hm') hr'
  exact truncate_mono (ofRat_mono (hle v hv v' hv') hq hq')

/-- No volume that is sent is negative, and their sum stays within what the reports span
exactly where the gaps are covered. -/
theorem volume_conserved_iff {symbol : Text} {lastVolume : Baselines}
    (hfresh : lastVolume.lookup symbol = none) {polls : List (UtcTime × Meta)}
    (hbinary : ∀ poll ∈ polls, (Json.obj poll.2).Binary)
    (hreports : (reports polls).Pairwise (· ≤ ·)) :
    ((∀ tick ∈ pollQuotes symbol lastVolume polls, 0 ≤ tick.volume) ∧
      ((((pollQuotes symbol lastVolume polls).map WireTick.volume).sum : Int) : ℚ) ≤
        Counter.span (reports polls)) ↔ GapsCovered polls := by
  have hvolumes := volumes_pollQuotes symbol lastVolume polls
  rw [hfresh] at hvolumes
  have hnonneg : ∀ tick ∈ pollQuotes symbol lastVolume polls, 0 ≤ tick.volume := by
    intro tick htick
    apply Counter.increases_nonneg none ((observations polls).map (·.getD 0))
    rw [← hvolumes]
    exact List.mem_map_of_mem htick
  rw [and_iff_right hnonneg, hvolumes,
    Counter.sum_increases (observations_pairwise hbinary hreports), GapsCovered, unread,
    le_sub_iff_add_le, add_comm]
  push_cast
  rfl

/-- Where every quote that sends a tick reports its day volume, the volumes that are sent add up
to the way from the first day volume that is read to the last. -/
theorem sum_volumes_of_reported {symbol : Text} {lastVolume : Baselines}
    (hfresh : lastVolume.lookup symbol = none) {polls : List (UtcTime × Meta)}
    (hbinary : ∀ poll ∈ polls, (Json.obj poll.2).Binary)
    (hreports : (reports polls).Pairwise (· ≤ ·)) (hgap : none ∉ observations polls) :
    ((pollQuotes symbol lastVolume polls).map WireTick.volume).sum =
      Counter.span (observations polls).reduceOption := by
  rw [volumes_pollQuotes, hfresh, Counter.sum_increases (observations_pairwise hbinary hreports),
    Counter.recounted_eq_zero hgap, add_zero]

/-! ### A quote without its volume -/

/-- A quote at a price of 170, with its day volume as it comes. -/
def quoteOf (volume : Json) : Meta :=
  [(text "regularMarketPrice", .int 170), (text "regularMarketVolume", volume)]

theorem quoteOf_binary (n : Int) : (Json.obj (quoteOf (.int n))).Binary :=
  ⟨trivial, trivial, trivial⟩

def sampleTime : UtcTime := ⟨sampleDate, Time.midnight⟩

/-- The second of three quotes has no volume. -/
def gappedPolls : List (UtcTime × Meta) :=
  [(sampleTime, quoteOf (.int 100)), (sampleTime, quoteOf .null), (sampleTime, quoteOf (.int 150))]

def reportedPolls : List (UtcTime × Meta) :=
  [(sampleTime, quoteOf (.int 100)), (sampleTime, quoteOf (.int 150))]

/-- After the gap the first 100 shares go out once more: 150 in all, where 50 were added. -/
theorem volume_counted_again :
    (reports gappedPolls).Pairwise (· ≤ ·) ∧ Counter.span (reports gappedPolls) = 50 ∧
      ((pollQuotes (text "AAPL") ∅ gappedPolls).map WireTick.volume).sum = 150 := by
  decide +kernel

theorem volume_conserved_reported :
    (∀ tick ∈ pollQuotes (text "AAPL") ∅ reportedPolls, 0 ≤ tick.volume) ∧
      ((((pollQuotes (text "AAPL") ∅ reportedPolls).map WireTick.volume).sum : Int) : ℚ) ≤
        Counter.span (reports reportedPolls) := by
  refine (volume_conserved_iff (Finmap.lookup_empty _) ?_ (by decide +kernel)).mpr
    (by decide +kernel)
  intro poll hpoll
  rcases List.mem_cons.mp hpoll with rfl | hpoll
  · exact quoteOf_binary 100
  · rw [List.mem_singleton.mp hpoll]
    exact quoteOf_binary 150

end UsPolling
end NexusBackend
