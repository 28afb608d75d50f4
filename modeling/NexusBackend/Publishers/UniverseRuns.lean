import NexusBackend.Publishers.UniverseTickers
import NexusBackend.Publishers.UsRuns

/-!
`UniversePublisher` in operation: what the `UsPublisher` polls that it has started with the rows of
`security_master`, from that start on.
-/
namespace NexusBackend

open Python Transition

namespace UniversePolling

/-- A ticker that the universe publisher is there for. -/
def Covers (p : UniversePolling) (table : SecurityMaster) (ticker : Text) : Prop :=
  ∃ row ∈ table.rows, Selected row ∧ row.ticker = ticker ∧ ticker ∉ p.exclude

variable {κ : Type} [LinearOrder κ] {collate : Text → κ} {table : SecurityMaster}
  {p : UniversePolling} {cfg : UsPolling.Config}

/-- The symbols are the tickers that it is there for, each of them once. -/
theorem start_symbols (h : p.start (.ok (selectedRows collate table)) = .ok (some cfg)) :
    cfg.symbols.Nodup ∧ ∀ ticker, ticker ∈ cfg.symbols ↔ p.Covers table ticker := by
  have hnodup := selectedRows_nodup collate table
  have hsymbols := (start_eq_some h).1
  rw [(@loadRows_spec p.exclude _ hnodup).1] at hsymbols
  rw [hsymbols]
  refine ⟨(List.filter_sublist.map Security.ticker).nodup hnodup, fun ticker => ?_⟩
  constructor
  · intro hticker
    obtain ⟨row, hrow, rfl⟩ := List.mem_map.mp hticker
    obtain ⟨hselected, hexclude⟩ := List.mem_filter.mp hrow
    obtain ⟨htable, hcondition⟩ := mem_selectedRows.mp hselected
    exact ⟨row, htable, hcondition, rfl, of_decide_eq_true hexclude⟩
  · rintro ⟨row, htable, hcondition, rfl, hexclude⟩
    refine List.mem_map_of_mem (List.mem_filter.mpr ⟨?_, decide_eq_true hexclude⟩)
    exact mem_selectedRows.mpr ⟨htable, hcondition⟩

def classShareSession : List UsLabel :=
  [.start, .wake, .fetched (.raises ⟨.named (text "ReadTimeout"), []⟩) UsPoller.openingTime]

end UniversePolling
end NexusBackend
