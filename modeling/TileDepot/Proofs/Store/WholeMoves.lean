import TileDepot.Proofs.Store.Mapping

/-!
# Layers that move whole

A resident store knows of a layer by its tiles and its metadata, but decides by its tiles and its parameters whether there is
anything to move. What it moves it moves whole, what it refuses stays whole; a layer of which there is nothing but metadata is
reported as not moved, and is left where it was.
-/

namespace TileDepot

namespace Resident

variable {store : Resident} {layer target : String}

/-- All that there is of a layer is found under another name, and nothing is left under its own. -/
structure MovedWhole (store after : Resident) (layer target : String) : Prop where
  tiles : ∀ key : TileKey, key.layer = layer → after.tiles[key.renamed target]? = store.tiles[key]?
  notes : ∀ key : String, after.metadataAt target key = store.metadataAt layer key
  parameters : ∀ (id : String) (parameters : Parameters), (store.parametersOf layer)[id]? = some parameters →
    (after.parametersOf target)[id]? = some parameters
  gone : after.layerExists layer = false
  unmapped : after.parametersOf layer = ∅

/-- Of all layers but two there is the same as before. -/
structure SameElsewhere (store after : Resident) (layer target : String) : Prop where
  tiles : ∀ key : TileKey, key.layer ≠ layer → key.layer ≠ target → after.tiles[key]? = store.tiles[key]?
  notes : ∀ other key : String, other ≠ layer → other ≠ target → after.metadataAt other key = store.metadataAt other key
  parameters : ∀ other : String, other ≠ layer → other ≠ target → after.parametersOf other = store.parametersOf other

/-! ## What is moved -/

section Moved

variable (hfree : store.layerExists target = false)

include hfree

theorem movedWhole_withMoved (hne : layer ≠ target) : MovedWhole store (store.withMoved layer target) layer target where
  tiles key hlayer := by
    subst hlayer
    exact (moved_withMoved hfree (key.renamed target)).trans (if_pos rfl)
  notes key := by rw [metadataAt_withMoved hfree, if_pos rfl]
  parameters id parameters hid := by
    cases htable : store.parameters[layer]? with
    | none =>
      rw [parametersOf, Std.ExtTreeMap.getD_eq_getD_getElem?, htable] at hid
      cases Std.ExtTreeMap.getElem?_empty.symm.trans hid
    | some table => rwa [parametersOf_withMoved_of_some htable, if_pos rfl]
  gone := by
    rw [layerExists_eq_false_iff]
    constructor
    · intro key hkey hlayer
      obtain ⟨payload, hpayload⟩ := Table.mem_iff_exists.mp hkey
      rw [moved_withMoved hfree, if_neg (hlayer.trans_ne hne), if_pos hlayer] at hpayload
      cases hpayload
    · rw [Table.mem_iff_exists]
      rintro ⟨notes, hnotes⟩
      change (moveEntry store.metadata layer target)[layer]? = some notes at hnotes
      rw [getElem?_moveEntry (metadata_of_not_exists hfree), if_neg hne, if_pos rfl] at hnotes
      cases hnotes
  unmapped := by
    cases htable : store.parameters[layer]? with
    | none =>
      rw [parametersOf_withMoved_of_none htable, parametersOf, Std.ExtTreeMap.getD_eq_getD_getElem?, htable]
      rfl
    | some table => rw [parametersOf_withMoved_of_some htable, if_neg hne.symm, if_pos rfl]

theorem sameElsewhere_withMoved : SameElsewhere store (store.withMoved layer target) layer target where
  tiles key hlayer htarget := by rw [moved_withMoved hfree, if_neg htarget, if_neg hlayer]
  notes other key hlayer htarget := by rw [metadataAt_withMoved hfree, if_neg htarget, if_neg hlayer]
  parameters other hlayer htarget := by
    cases htable : store.parameters[layer]? with
    | none => rw [parametersOf_withMoved_of_none htable]
    | some table => rw [parametersOf_withMoved_of_some htable, if_neg htarget.symm, if_neg hlayer.symm]

end Moved

/-! ## What is left where it was -/

/-- A layer without tiles and parameters is where it should be exactly if there is no metadata of it either. -/
theorem movedWhole_self_iff (hfree : store.layerExists target = false) (hbare : store.Bare layer) :
    MovedWhole store store layer target ↔ layer ∉ store.metadata := by
  constructor
  · intro h
    exact (layerExists_eq_false_iff.mp h.gone).2
  · intro hmetadata
    have hexists : store.layerExists layer = false := layerExists_eq_false_iff.mpr ⟨hbare.1, hmetadata⟩
    have htable : store.parametersOf layer = ∅ := by
      rw [parametersOf, Std.ExtTreeMap.getD_eq_fallback hbare.2]
    refine ⟨fun key hlayer => ?_, fun key => ?_, fun id parameters hid => ?_, hexists, htable⟩
    · rw [Std.ExtTreeMap.getElem?_eq_none fun hmem => layer_ne_of_not_exists hfree hmem rfl,
        Std.ExtTreeMap.getElem?_eq_none fun hmem => hbare.1 key hmem hlayer]
    · rw [metadataAt_of_not_exists hfree, metadataAt_of_not_exists hexists]
    · rw [htable] at hid
      cases Std.ExtTreeMap.getElem?_empty.symm.trans hid

/-- A renaming that fails changes nothing. One that does not fail leaves every third layer as it is, and moves the whole layer
unless there is nothing but metadata of it: then it moves nothing, and the layer still exists under its old name. -/
theorem moved_whole_iff (store : Resident) {layer target : String} (hne : layer ≠ target) :
    let renamed := (alone (.rename layer target)).onState store
    (∀ error, renamed.1 = .error error → renamed.2 = store) ∧
      ∀ moved, renamed.1 = .ok moved →
        (MovedWhole store renamed.2 layer target ↔ ¬(store.Bare layer ∧ layer ∈ store.metadata)) ∧
        SameElsewhere store renamed.2 layer target := by
  intro renamed
  have hsame : SameElsewhere store store layer target := ⟨fun _ _ _ => rfl, fun _ _ _ _ => rfl, fun _ _ _ => rfl⟩
  rcases store.onState_rename_cases layer target with ⟨-, hrun⟩ | ⟨hfree, hbare, hrun⟩ | ⟨hfree, hbare, hrun⟩
  · rw [show renamed = _ from hrun]
    exact ⟨fun _ _ => rfl, fun moved hmoved => nomatch hmoved⟩
  · rw [show renamed = _ from hrun]
    refine ⟨fun error herror => (nomatch herror), fun moved _ => ⟨?_, hsame⟩⟩
    rw [movedWhole_self_iff hfree hbare]
    exact not_congr (and_iff_right hbare).symm
  · rw [show renamed = _ from hrun]
    refine ⟨fun error herror => (nomatch herror), fun moved _ => ⟨?_, sameElsewhere_withMoved hfree⟩⟩
    exact iff_of_true (movedWhole_withMoved hfree hne) fun h => hbare h.1

/-- Roads with a tile at night and a note, renamed to streets: all of it is moved, and the lanes stay. -/
theorem moved_whole_with_note :
    let night : Tile := { Sample.tile "roads" 1 2 5 with parameters := Std.ExtTreeMap.ofList [("STYLES", "night")] }
    let store := Sample.stored [.put night, .putMetadata "roads" "style" "plain", .put (Sample.tile "lanes" 1 2 7)]
    let renamed := (alone (.rename "roads" "streets")).onState store
    "roads" ≠ "streets" ∧ renamed.1 = .ok true ∧ MovedWhole store renamed.2 "roads" "streets" ∧
      SameElsewhere store renamed.2 "roads" "streets" ∧ renamed.2.metadataAt "streets" "style" = some "plain" := by
  intro night store renamed
  have hmoved : renamed.1 = .ok true := by decide +kernel
  obtain ⟨-, hok⟩ := moved_whole_iff store (show "roads" ≠ "streets" by decide)
  obtain ⟨hwhole, hsame⟩ := hok true hmoved
  have hkey : night.key ∈ store.tiles := by decide +kernel
  exact ⟨by decide, hmoved, hwhole.mpr fun h => h.1.1 night.key hkey rfl, hsame, by decide +kernel⟩

/-- A layer with a note and nothing else exists, and still does after it has been renamed: it is reported as not moved, and the
note is not found under the new name. -/
theorem note_left_behind :
    let store := Sample.stored [.putMetadata "roads" "style" "plain"]
    let renamed := (alone (.rename "roads" "streets")).onState store
    renamed.1 = .ok false ∧ ¬MovedWhole store renamed.2 "roads" "streets" ∧ renamed.2.layerExists "roads" = true ∧
      renamed.2.metadataAt "roads" "style" = some "plain" ∧ renamed.2.metadataAt "streets" "style" = none := by
  intro store renamed
  have hexists : renamed.2.layerExists "roads" = true := by decide +kernel
  exact ⟨by decide +kernel, fun h => Bool.false_ne_true (h.gone.symm.trans hexists), hexists, by decide +kernel, by decide +kernel⟩

end Resident

end TileDepot
