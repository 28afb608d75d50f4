import NexusBackend.Library.KeyedTable
import NexusBackend.Library.Number
import NexusBackend.Library.Json

/-!
The seed file of the security universe and the rows in it.

A row is a record of the twelve fields that every row of the file has. The edges of
`relations` are passed on unread.
-/
namespace NexusBackend

open Python

structure Security where
  ticker : Text
  nameKo : Option Text
  nameEn : Option Text
  aliases : List Text
  market : Text
  sector : Text
  sectorLabel : Text
  currency : Text
  sharesOutstanding : Option Number
  marketCap : Option Number
  isSubscribed : Bool
  dataSource : Text
deriving DecidableEq

structure Seed where
  schemaVersion : Int
  note : Text
  securities : List Security
  relations : List Json

namespace Seed

def tickers (seed : Seed) : List Text := seed.securities.map Security.ticker

/-- What stands for a seed file that does not exist. -/
def missing : Seed := ⟨3, [], [], []⟩

/-- `_load_existing_seed`, where a file that exists holds a seed. -/
def load (file : Option Seed) : Seed := file.getD missing

end Seed

namespace Security

/-- The row was made up to fill a market. -/
def IsPadding (s : Security) : Prop := s.dataSource = text "static_master_padding"

instance (s : Security) : Decidable s.IsPadding := inferInstanceAs (Decidable (_ = _))

/-- The merge of both builders: a row goes in where its ticker is not there yet. -/
def merge (securities more : List Security) : List Security :=
  KeyedTable.addAllNew Security.ticker securities more

end Security
end NexusBackend
