import TileDepot.Tile.Tile

/-!
# Identifiers of tile sets

The identifier of a tile set is made of its fields with the sign `#` between them. Where this sign does not occur in the
names of layers, gridsets and formats, the identifier says which tile set it is; the parameters may be any text, because
they come last.
-/

namespace TileDepot

/-- A name without the sign that stands between the parts of an identifier. -/
def PlainName (name : String) : Prop := '#' ∉ name.toList

instance : DecidablePred PlainName := fun name => inferInstanceAs (Decidable ('#' ∉ name.toList))

/-- A tile set with plain names that goes by the identifier made of its fields. -/
structure TileSet.Plain (set : TileSet) : Prop where
  eq_of : set = .of set.layer set.gridset set.format set.parameters
  layer : PlainName set.layer
  gridset : PlainName set.gridset
  format : PlainName set.format

/-- A tile with plain names. -/
structure TileKey.Plain (key : TileKey) : Prop where
  layer : PlainName key.layer
  gridset : PlainName key.gridset
  format : PlainName key.format

/-! ## Texts with a sign between their parts -/

/-- How often the sign that stands between the parts of an identifier occurs in a name. -/
def signs (name : String) : Nat := name.toList.count '#'

theorem PlainName.signs_eq_zero {name : String} (h : PlainName name) : signs name = 0 := List.count_eq_zero.mpr h

/-- A text is cut behind a given number of its signs in one way only. -/
theorem cut_of_count {first second rest rest' : List Char} (h : first.count '#' = second.count '#')
    (heq : first ++ '#' :: rest = second ++ '#' :: rest') : first = second ∧ rest = rest' := by
  induction first generalizing second with
  | nil =>
    cases second with
    | nil => exact ⟨rfl, (List.cons.inj heq).2⟩
    | cons c second =>
      obtain ⟨rfl, -⟩ := List.cons.inj heq
      simp at h
  | cons c first ih =>
    cases second with
    | nil =>
      obtain ⟨rfl, -⟩ := List.cons.inj heq
      simp at h
    | cons d second =>
      obtain ⟨rfl, htail⟩ := List.cons.inj heq
      rw [List.count_cons, List.count_cons] at h
      obtain ⟨rfl, hrest⟩ := ih (Nat.add_right_cancel h) htail
      exact ⟨rfl, hrest⟩

namespace TileSet

/-- What follows the format in an identifier. -/
def idTail : Option String → List Char
  | none => []
  | some parameters => '#' :: parameters.toList

theorem toList_idOf (layer gridset format : String) (parameters : Option String) :
    (idOf layer gridset format parameters).toList =
      layer.toList ++ '#' :: (gridset.toList ++ '#' :: (format.toList ++ idTail parameters)) := by
  cases parameters <;> simp [idOf, idTail]

/-- The format and the parameters are known from what follows the gridset, once the signs of the format are. -/
theorem format_idTail_inj {format format' : String} {parameters parameters' : Option String} (h : signs format = signs format')
    (heq : format.toList ++ idTail parameters = format'.toList ++ idTail parameters') :
    format = format' ∧ parameters = parameters' := by
  -- without parameters there is one sign less
  have hcount := congrArg (List.count '#') heq
  rw [List.count_append, List.count_append] at hcount
  unfold signs at h
  cases parameters with
  | none =>
    cases parameters' with
    | none => exact ⟨String.toList_inj.mp (by simpa [idTail] using heq), rfl⟩
    | some text =>
      simp only [idTail, List.count_nil, List.count_cons_self] at hcount
      omega
  | some text =>
    cases parameters' with
    | none =>
      simp only [idTail, List.count_nil, List.count_cons_self] at hcount
      omega
    | some text' =>
      obtain ⟨hformat, htext⟩ := cut_of_count h heq
      exact ⟨String.toList_inj.mp hformat, congrArg some (String.toList_inj.mp htext)⟩

/-- The identifier determines the fields, once it is known how many signs there are in each but the last. -/
theorem idOf_inj_of_signs {layer gridset format layer' gridset' format' : String} {parameters parameters' : Option String}
    (hl : signs layer = signs layer') (hg : signs gridset = signs gridset') (hf : signs format = signs format')
    (heq : idOf layer gridset format parameters = idOf layer' gridset' format' parameters') :
    layer = layer' ∧ gridset = gridset' ∧ format = format' ∧ parameters = parameters' := by
  have h := congrArg String.toList heq
  rw [toList_idOf, toList_idOf] at h
  obtain ⟨hlayer, h⟩ := cut_of_count hl h
  obtain ⟨hgridset, h⟩ := cut_of_count hg h
  obtain ⟨hformat, hparameters⟩ := format_idTail_inj hf h
  exact ⟨String.toList_inj.mp hlayer, String.toList_inj.mp hgridset, hformat, hparameters⟩

/-- Plain names: the identifier determines the fields. -/
theorem idOf_inj {layer gridset format layer' gridset' format' : String} {parameters parameters' : Option String}
    (hl : PlainName layer) (hg : PlainName gridset) (hf : PlainName format) (hl' : PlainName layer')
    (hg' : PlainName gridset') (hf' : PlainName format')
    (heq : idOf layer gridset format parameters = idOf layer' gridset' format' parameters') :
    layer = layer' ∧ gridset = gridset' ∧ format = format' ∧ parameters = parameters' := by
  refine idOf_inj_of_signs ?_ ?_ ?_ heq
  · rw [hl.signs_eq_zero, hl'.signs_eq_zero]
  · rw [hg.signs_eq_zero, hg'.signs_eq_zero]
  · rw [hf.signs_eq_zero, hf'.signs_eq_zero]

/-- Plain tile sets with the same identifier are the same. -/
theorem Plain.eq_of_id {set set' : TileSet} (h : set.Plain) (h' : set'.Plain) (heq : set.id = set'.id) : set = set' := by
  rw [h.eq_of, h'.eq_of] at heq
  obtain ⟨hl, hg, hf, hp⟩ := idOf_inj h.layer h.gridset h.format h'.layer h'.gridset h'.format heq
  rw [h.eq_of, h'.eq_of, hl, hg, hf, hp]

theorem Plain.of {layer gridset format : String} (parameters : Option String) (hl : PlainName layer)
    (hg : PlainName gridset) (hf : PlainName format) : (TileSet.of layer gridset format parameters).Plain :=
  ⟨rfl, hl, hg, hf⟩

theorem Plain.renamed {set : TileSet} (h : set.Plain) {target : String} (ht : PlainName target) : (set.renamed target).Plain :=
  ⟨rfl, ht, h.gridset, h.format⟩

/-- A plain tile set moved to its own layer stays what it is. -/
theorem Plain.renamed_self {set : TileSet} (h : set.Plain) : set.renamed set.layer = set := h.eq_of.symm

/-- Tile sets of one layer that go to the same tile set are the same. -/
theorem Plain.eq_of_renamed_id {set set' : TileSet} (h : set.Plain) (h' : set'.Plain) {target : String}
    (ht : PlainName target) (hlayer : set.layer = set'.layer) (heq : (set.renamed target).id = (set'.renamed target).id) :
    set = set' := by
  obtain ⟨-, hg, hf, hp⟩ := idOf_inj ht h.gridset h.format ht h'.gridset h'.format heq
  rw [h.eq_of, h'.eq_of, hlayer, hg, hf, hp]

end TileSet

namespace TileKey

theorem Plain.tileSet {key : TileKey} (h : key.Plain) : key.tileSet.Plain := .of _ h.layer h.gridset h.format

theorem Plain.renamed {key : TileKey} (h : key.Plain) {target : String} (ht : PlainName target) : (key.renamed target).Plain :=
  ⟨ht, h.gridset, h.format⟩

theorem tileSet_renamed (key : TileKey) (target : String) : (key.renamed target).tileSet = key.tileSet.renamed target := rfl

/-- A tile belongs to the tile set whose identifier it bears. -/
theorem Plain.tileSet_eq_iff {key : TileKey} {set : TileSet} (h : key.Plain) (hset : set.Plain) :
    key.tileSet.id = set.id ↔ key.tileSet = set :=
  ⟨h.tileSet.eq_of_id hset, congrArg TileSet.id⟩

/-- Tiles of one tile set in one place are one tile. -/
theorem eq_of_tileSet_eq {key key' : TileKey} (h : key.tileSet = key'.tileSet) (hx : key.x = key'.x) (hy : key.y = key'.y)
    (hz : key.z = key'.z) : key = key' := by
  obtain ⟨layer, gridset, format, parameters, x, y, z⟩ := key
  obtain ⟨layer', gridset', format', parameters', x', y', z'⟩ := key'
  simp_all [TileKey.tileSet, TileSet.of]

/-- Tiles of one layer stay apart when the layer is renamed. -/
theorem eq_of_renamed_eq {key key' : TileKey} {target : String} (hlayer : key.layer = key'.layer)
    (heq : key.renamed target = key'.renamed target) : key = key' := by
  cases key
  cases key'
  simp_all [TileKey.renamed]

end TileKey

end TileDepot
