import TileDepot.Page.Atlas
import TileDepot.Page.Ledger
import TileDepot.Tile.Tile

/-!
# Books

The books of a depot are its ledger together with the atlas that says to which page of the ledger a tile belongs.
-/

namespace TileDepot

/-- An atlas and a ledger. -/
structure Books where
  atlas : Atlas
  ledger : Ledger
deriving Inhabited

namespace Books

/-- The atlas as a part of the books. -/
def atlasCell : Cell Books Atlas := ⟨Books.atlas, fun atlas books => { books with atlas }⟩

/-- The ledger as a part of the books. -/
def ledgerCell : Cell Books Ledger := ⟨Books.ledger, fun ledger books => { books with ledger }⟩

/-- Hits recorded on the page of a tile at a minute. -/
def recordHits (set : TileSet) (x y z : Int) (hits : Nat) (now : Int) : Run Books PageStats := do
  let page ← atlasCell.run (Atlas.pageOf set x y z now)
  ledgerCell.step fun ledger => ledger.addHits set page hits now

/-- Tiles that were stored or deleted and their bytes recorded on the page of one of them at a minute. -/
def recordTiles (tile : TileKey) (tiles bytes now : Int) : Run Books Unit := do
  let set := tile.tileSet
  let page ← atlasCell.run (Atlas.pageOf set tile.x tile.y tile.z now)
  let slots ← atlasCell.run (Atlas.tilesPerPage set page.zoom)
  ledgerCell.change fun ledger => (ledger.addTilesBy Usage.record set page tiles slots bytes now).2

/-- The average size of a tile of a tile set. -/
def averageTileSize (books : Books) (id : String) : Float := (books.ledger.usageOf id).averageSize

end Books

end TileDepot
