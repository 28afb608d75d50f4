import NexusBackend.Alarms.Models
import NexusBackend.Library.Ranking
import NexusBackend.Market.Models
import Mathlib.Data.List.Lex
import Mathlib.Data.Prod.Lex

/-!
`InMemoryAlarmRepository`: the alarms in the order they were added, and its two reads.

No call yields while it holds the lock, so the calls take effect one after another and each is
one action on the store.
-/
namespace NexusBackend

open Python

structure InMemoryAlarmRepository where
  alarms : List Alarm

/-- `_matches`. -/
def isMatch (filters : AlarmListFilters) (alarm : Alarm) : Bool :=
  if alarm.status ∉ filters.statuses then false
  else if filters.severities.any fun severities => alarm.severity ∉ severities then false
  else if filters.sources.any fun sources => alarm.source ∉ sources then false
  else if (filters.since.bind DateTime.instant?).any fun since => alarm.occurred < since then
    false
  else true

/-- The key of the sort: tuples compare by their first components that differ. -/
def sortKey (alarm : Alarm) : Int ×ₗ Text := toLex (alarm.occurred, alarm.id)

namespace InMemoryAlarmRepository

def add (alarm : Alarm) : StateM InMemoryAlarmRepository Unit :=
  modify fun repo => ⟨repo.alarms ++ [alarm]⟩

def replaceAll (alarms : List Alarm) : StateM InMemoryAlarmRepository Unit := set (mk alarms)

/-- `list`: the page and the total. -/
def list (filters : AlarmListFilters) : StateM InMemoryAlarmRepository (List Alarm × Nat) := do
  let snapshot := (← get).alarms
  let matched := Ranking.descending sortKey (snapshot.filter (isMatch filters))
  return (matched.take filters.limit.toNat, matched.length)

def countActive : StateM InMemoryAlarmRepository Nat := do
  let snapshot := (← get).alarms
  return snapshot.countP fun a => a.status = .active

/-- A call of the repository, by the router or by a producer of alarms. -/
inductive Call
  | add (alarm : Alarm)
  | replaceAll (alarms : List Alarm)
  | list (filters : AlarmListFilters)
  | countActive

def Call.isWrite : Call → Bool
  | .add _ | .replaceAll _ => true
  | .list _ | .countActive => false

def Call.perform : Call → StateM InMemoryAlarmRepository Unit
  | .add alarm => InMemoryAlarmRepository.add alarm
  | .replaceAll alarms => InMemoryAlarmRepository.replaceAll alarms
  | .list filters => discard (InMemoryAlarmRepository.list filters)
  | .countActive => discard InMemoryAlarmRepository.countActive

def perform (calls : List Call) : StateM InMemoryAlarmRepository Unit := calls.forM Call.perform

/-- A run leaves the store that its writes alone leave. -/
theorem perform_writes (calls : List Call) (repo : InMemoryAlarmRepository) :
    ((perform calls).run repo).2 = ((perform (calls.filter Call.isWrite)).run repo).2 := by
  induction calls generalizing repo with
  | nil => rfl
  | cons call calls ih =>
      cases call with
      | add alarm => exact ih ⟨repo.alarms ++ [alarm]⟩
      | replaceAll alarms => exact ih ⟨alarms⟩
      | list _ => exact ih repo
      | countActive => exact ih repo

end InMemoryAlarmRepository

/-! ### What is asked for -/

/-- The other filters are the same, whatever their limit. -/
def AlarmListFilters.SameButLimit (filters more : AlarmListFilters) : Prop :=
  more.statuses = filters.statuses ∧ more.severities = filters.severities ∧
    more.sources = filters.sources ∧ more.since = filters.since

/-- The alarm passes every filter. -/
structure Satisfies (filters : AlarmListFilters) (alarm : Alarm) : Prop where
  status : alarm.status ∈ filters.statuses
  severity : ∀ severities, filters.severities = some severities → alarm.severity ∈ severities
  source : ∀ sources, filters.sources = some sources → alarm.source ∈ sources
  since : ∀ since, filters.since = some since → alarm.occurredAt.before since = .ok false

theorem option_any_eq_false_iff {α : Type} {x : Option α} {p : α → Bool} :
    ¬ x.any p = true ↔ ∀ a, x = some a → p a = false := by
  cases x with
  | none => exact iff_of_true nofun nofun
  | some a => simp

theorem isMatch_iff (filters : AlarmListFilters) (alarm : Alarm) :
    isMatch filters alarm = true ↔ Satisfies filters alarm := by
  have hsince (since : DateTime) (hs : filters.since = some since) :
      alarm.occurredAt.before since = .ok false ↔
        ∀ i, since.instant? = some i → ¬ alarm.occurred < i := by
    obtain ⟨i, hi⟩ := filters.since_aware hs
    rw [DateTime.before_aware alarm.occurred_aware hi, hi]
    simp
  simp only [isMatch]
  constructor
  · intro h
    split at h
    · cases h
    · rename_i hstatus
      split at h
      · cases h
      · rename_i hseverity
        split at h
        · cases h
        · rename_i hsource
          split at h
          · cases h
          · rename_i hbefore
            rw [option_any_eq_false_iff] at hseverity hsource hbefore
            refine ⟨not_not.mp hstatus, ?_, ?_, ?_⟩
            · intro severities hs
              simpa using hseverity severities hs
            · intro sources hs
              simpa using hsource sources hs
            · intro since hs
              rw [hsince since hs]
              intro i hi
              have hbind : filters.since.bind DateTime.instant? = some i := by rw [hs]; exact hi
              simpa using hbefore i hbind
  · intro h
    rw [if_neg (not_not.mpr h.status), if_neg, if_neg, if_neg]
    · rw [option_any_eq_false_iff]
      intro i hi
      obtain ⟨since, hs, hsi⟩ := Option.bind_eq_some_iff.mp hi
      exact decide_eq_false ((hsince since hs).mp (h.since since hs) i hsi)
    · rw [option_any_eq_false_iff]
      intro sources hs
      simpa using h.source sources hs
    · rw [option_any_eq_false_iff]
      intro severities hs
      simpa using h.severity severities hs

instance (filters : AlarmListFilters) (alarm : Alarm) : Decidable (Satisfies filters alarm) :=
  decidable_of_iff _ (isMatch_iff filters alarm)

namespace InMemoryAlarmRepository

variable (repo : InMemoryAlarmRepository) (filters : AlarmListFilters)

/-- The alarms asked for. -/
def matching : List Alarm := repo.alarms.filter fun alarm => Satisfies filters alarm

def page : List Alarm := ((list filters).run repo).1.1

def total : Nat := ((list filters).run repo).1.2

theorem filter_isMatch : repo.alarms.filter (isMatch filters) = repo.matching filters := by
  apply List.filter_congr
  intro alarm _
  rw [Bool.eq_iff_iff, isMatch_iff, decide_eq_true_eq]

theorem page_eq : repo.page filters =
    (Ranking.descending sortKey (repo.matching filters)).take filters.limit.toNat := by
  rw [← filter_isMatch]
  rfl

theorem total_eq : repo.total filters = (repo.matching filters).length := by
  rw [← filter_isMatch]
  exact (Ranking.descending_perm sortKey _).length_eq

theorem matching_congr {more : AlarmListFilters} (h : filters.SameButLimit more) :
    repo.matching more = repo.matching filters := by
  obtain ⟨hstatuses, hseverities, hsources, hsince⟩ := h
  rw [← filter_isMatch, ← filter_isMatch]
  apply List.filter_congr
  intro alarm _
  rw [isMatch, isMatch, hstatuses, hseverities, hsources, hsince]

theorem sortKey_injOn {alarms : List Alarm} (h : (alarms.map fun a => a.id).Nodup) :
    ∀ a ∈ alarms, ∀ b ∈ alarms, sortKey a = sortKey b → a = b := by
  intro a ha b hb hkey
  have hid : a.id = b.id := congrArg Prod.snd (toLex.injective hkey)
  exact List.inj_on_of_nodup_map h ha hb hid

/-- The first `limit` of the alarms asked for, newest first, with their number. -/
theorem list_reads :
    (∃ ranked : List Alarm, ranked.Perm (repo.matching filters) ∧
      ranked.Pairwise (Ranking.NotBelow sortKey) ∧
      repo.page filters = ranked.take filters.limit.toNat) ∧
    repo.total filters = (repo.matching filters).length ∧
    (∀ more, filters.SameButLimit more → filters.limit ≤ more.limit →
      repo.page filters <+: repo.page more) ∧
    (∀ other : InMemoryAlarmRepository, other.alarms.Perm repo.alarms →
      (repo.alarms.map fun a => a.id).Nodup →
      ((list filters).run other).1 = ((list filters).run repo).1) ∧
    (∀ omitted, (repo.page filters ++ omitted).Perm (repo.matching filters) →
      ∀ a ∈ repo.page filters, ∀ b ∈ omitted, b.occurred ≤ a.occurred) ∧
    ((countActive.run repo).1 = repo.alarms.countP (fun a => a.status = .active) ∧
      ((list filters *> countActive).run repo).1 = (countActive.run repo).1) ∧
    ((list filters).run repo).2 = repo ∧ (countActive.run repo).2 = repo := by
  refine ⟨?_, repo.total_eq filters, ?_, ?_, ?_, ⟨rfl, rfl⟩, rfl, rfl⟩
  · exact ⟨_, Ranking.descending_perm sortKey _, Ranking.descending_sorted sortKey _,
      repo.page_eq filters⟩
  · intro more hmore hlimit
    rw [page_eq, page_eq, repo.matching_congr filters hmore]
    exact List.take_prefix_take_left (Int.toNat_le_toNat hlimit)
  · intro other hperm hids
    have hsame : Ranking.descending sortKey (other.alarms.filter (isMatch filters)) =
        Ranking.descending sortKey (repo.alarms.filter (isMatch filters)) := by
      refine (Ranking.descending_eq_of_perm sortKey (hperm.filter _).symm ?_).symm
      intro a ha b hb
      exact sortKey_injOn hids a (List.mem_of_mem_filter ha) b (List.mem_of_mem_filter hb)
    change (_, _) = (_, _)
    rw [hsame]
  · intro omitted hperm a ha b hb
    have hle : sortKey b ≤ sortKey a :=
      Ranking.notBelow_omitted sortKey filters.limit.toNat (repo.page_eq filters) hperm ha hb
    rw [Prod.Lex.le_iff] at hle
    rcases hle with hlt | ⟨heq, -⟩
    · exact hlt.le
    · exact heq.le

/-- Two alarms of one instant, in either order, and pages of one and of two. -/
theorem list_reads_pair :
    ∃ (repo other : InMemoryAlarmRepository) (filters more : AlarmListFilters)
      (omitted : List Alarm),
      (repo.matching filters).length = 2 ∧ other.alarms = repo.alarms.reverse ∧
      (repo.page filters <+: repo.page more ∧
        ((list filters).run other).1 = ((list filters).run repo).1 ∧
        (repo.page filters ++ omitted).Perm (repo.matching filters) ∧
        ∀ a ∈ repo.page filters, ∀ b ∈ omitted, b.occurred ≤ a.occurred) := by
  let alarm (id : Nat) : Alarm := {
    id := [id], severity := .critical, status := .active, source := text "kis-publisher"
    code := text "WEBSOCKET_DISCONNECTED", title := text "KIS WEBSOCKET DISCONNECTED"
    message := text "H0STCNT0 channel idle 12s", occurredAt := ⟨sampleDate, .midnight, some .utc⟩
    checked := rfl }
  let repo : InMemoryAlarmRepository := ⟨[alarm 65, alarm 66]⟩
  let one : AlarmListFilters := { limit := 1, checked := rfl }
  let two : AlarmListFilters := { limit := 2, checked := rfl }
  have hreads := list_reads repo one
  obtain ⟨⟨ranked, hperm, -, hpage⟩, -, hpre, horder, hnewer, -⟩ := hreads
  have hall : (repo.page one ++ ranked.drop 1).Perm (repo.matching one) := by
    rw [hpage]
    exact (List.Perm.of_eq (List.take_append_drop 1 ranked)).trans hperm
  exact ⟨repo, ⟨repo.alarms.reverse⟩, one, two, ranked.drop 1, by decide, rfl,
    hpre two ⟨rfl, rfl, rfl, rfl⟩ (by decide),
    horder ⟨repo.alarms.reverse⟩ (List.reverse_perm _) (by decide), hall, hnewer _ hall⟩

end InMemoryAlarmRepository
end NexusBackend
