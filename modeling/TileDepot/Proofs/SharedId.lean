import TileDepot.Proofs.Ledger

/-!
# Tile sets that share an identifier

Nothing keeps the sign `#` out of the names that an identifier is made of, and an identifier does not say where one name ends and
the next one begins. All it says is which texts there are between its signs: tile sets that cut the same sequence of texts in
different places share it, and with it everything that a ledger keeps under it.
-/

namespace TileDepot.TileSet

/-- The texts between the signs of a name. -/
def pieces (name : String) : List (List Char) := name.toList.splitOn '#'

/-- The texts between the signs of all names of a tile set, in the order in which its identifier has them. -/
def allPieces (set : TileSet) : List (List Char) :=
  pieces set.layer ++ pieces set.gridset ++ pieces set.format ++ set.parameters.elim [] pieces

/-! ## Identifiers as sequences of texts -/

/-- A text is known by the texts between its signs. -/
theorem splitOn_inj {text text' : List Char} (h : text.splitOn '#' = text'.splitOn '#') : text = text' := by
  have hjoined := congrArg (List.intercalate ['#']) h
  rwa [List.intercalate_splitOn, List.intercalate_splitOn] at hjoined

/-- What stands behind the format is cut into its pieces. -/
theorem splitOn_idTail (format : List Char) (parameters : Option String) :
    (format ++ idTail parameters).splitOn '#' = format.splitOn '#' ++ parameters.elim [] pieces := by
  cases parameters with
  | none => simp [idTail]
  | some text => exact List.splitOn_append_cons_self format text.toList

/-- An identifier is cut into the pieces of all its names. -/
theorem splitOn_idOf (layer gridset format : String) (parameters : Option String) :
    (idOf layer gridset format parameters).toList.splitOn '#' = (of layer gridset format parameters).allPieces := by
  rw [toList_idOf, List.splitOn_append_cons_self, List.splitOn_append_cons_self, splitOn_idTail]
  simp only [allPieces, of, pieces, List.append_assoc]

/-- An identifier says which texts there are between its signs, and no more. -/
theorem idOf_eq_iff {layer gridset format layer' gridset' format' : String} {parameters parameters' : Option String} :
    idOf layer gridset format parameters = idOf layer' gridset' format' parameters' ↔
      (of layer gridset format parameters).allPieces = (of layer' gridset' format' parameters').allPieces := by
  rw [← splitOn_idOf, ← splitOn_idOf]
  constructor
  · intro h
    rw [h]
  · intro h
    exact String.toList_inj.mp (splitOn_inj h)

/-! ## What is kept under an identifier -/

/-- What is recorded for a tile set counts for another exactly if they share an identifier. -/
theorem usageOf_addTiles_iff (set set' : TileSet) :
    (∀ (ledger : Ledger) (page : Page) (tiles : Int) (slots : Nat) (bytes now : Int),
      (ledger.addTiles set page tiles slots bytes now).2.usageOf set'.id = ledger.usageOf set'.id) ↔ set.id ≠ set'.id := by
  constructor
  · intro hkept hid
    have husage := hkept .empty (.ofIndex set.id default 0) 1 1 0 0
    rw [Ledger.addTiles, Ledger.usageOf_addTilesBy, if_pos hid, hid] at husage
    have htiles := congrArg Usage.tiles husage
    simp only [Ledger.usageOf, Ledger.empty, Usage.none, Std.ExtTreeMap.getD_empty] at htiles
    exact absurd htiles (by decide)
  · intro hid ledger page tiles slots bytes now
    rw [Ledger.addTiles, Ledger.usageOf_addTilesBy, if_neg hid]

/-- Tile sets share an identifier exactly if they have the same texts between the signs of their names, wherever one name ends
and the next one begins; those with as many signs in the layer, in the gridset and in the format are then the same. What is
recorded for a tile set is kept apart from what is recorded for another exactly if they do not share an identifier. -/
theorem shared_id_iff (layer gridset format layer' gridset' format' : String) (parameters parameters' : Option String) :
    let set : TileSet := of layer gridset format parameters
    let set' : TileSet := of layer' gridset' format' parameters'
    (set.id = set'.id ↔ set.allPieces = set'.allPieces) ∧
      (set.id = set'.id ∧ signs layer = signs layer' ∧ signs gridset = signs gridset' ∧ signs format = signs format' ↔
        layer = layer' ∧ gridset = gridset' ∧ format = format' ∧ parameters = parameters') ∧
      ((∀ (ledger : Ledger) (page : Page) (tiles : Int) (slots : Nat) (bytes now : Int),
        (ledger.addTiles set page tiles slots bytes now).2.usageOf set'.id = ledger.usageOf set'.id) ↔ set.id ≠ set'.id) := by
  intro set set'
  refine ⟨idOf_eq_iff, ⟨?_, ?_⟩, usageOf_addTiles_iff set set'⟩
  · rintro ⟨hid, hl, hg, hf⟩
    exact idOf_inj_of_signs hl hg hf hid
  · rintro ⟨rfl, rfl, rfl, rfl⟩
    exact ⟨rfl, rfl, rfl, rfl⟩

/-- Tile sets of two layers share an identifier. Of the two only one is registered, all that is recorded for the other counts for
its layer, and goes when this layer is deleted. -/
theorem one_id_of_two_layers :
    let set := of "roads" "night#EPSG:4326" "image/png" none
    let set' := of "roads#night" "EPSG:4326" "image/png" none
    let page := Page.ofIndex set'.id ⟨0, 0, 3⟩ 0
    let ledger := ((Ledger.empty.register set).addTiles set' page 1 4 5 0).2
    set.id = set'.id ∧ set.layer ≠ set'.layer ∧ ledger.allTileSets = [set] ∧ (ledger.usedByLayer set'.layer).bytes = 0 ∧
      (ledger.usedByLayer set.layer).bytes = 5 ∧ (ledger.deleteLayer set.layer).1 = 1 ∧
      ((ledger.deleteLayer set.layer).2.usageOf set'.id).used.bytes = 0 := by
  decide +kernel

end TileDepot.TileSet
